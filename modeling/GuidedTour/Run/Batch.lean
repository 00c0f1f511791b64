import GuidedTour.Service.Message
import GuidedTour.Tour.Digest
import GuidedTour.Workspace.Ranking

namespace GuidedTour

/-!
# Batches of files

The files of a project are put before the service in batches, the most important first.

* `BatchOptions` — how large batches are, how many are under way at once, and how long one may take;
* `importance` — how much a file matters for a tour;
* `touredFiles` — the files with something to tell, in falling order of their importance;
* `plan` — these files in batches, each with its digest;
* `Batch.request` — what the service is asked about a batch.
-/

/-- How batches are made and sent. -/
structure BatchOptions where
  batchSize : Nat := 4
  concurrency : Nat := 3
  timeout : Nat := 60
  deriving DecidableEq, Repr, Inhabited

/-- What is wrong with options. -/
inductive BatchProblem where
  | badSize (given : Nat)
  | badConcurrency (given : Nat)
  | noTime
  deriving DecidableEq, Repr

/-- The greatest size of a batch, and the most requests that are under way at once. -/
def maxBatchSize : Nat := 32

@[inherit_doc maxBatchSize]
def maxConcurrency : Nat := 16

/-- A sentence on what is wrong. -/
def BatchProblem.message : BatchProblem → String
  | badSize given =>
    "batch_size must be between 1 and " ++ toString maxBatchSize ++ " (got " ++ toString given ++
      ")"
  | badConcurrency given =>
    "concurrency must be between 1 and " ++ toString maxConcurrency ++ " (got " ++ toString given ++
      ")"
  | noTime => "batch_timeout_secs must be > 0"

namespace BatchOptions

/-- The first thing that is wrong with the options. -/
def problem? (o : BatchOptions) : Option BatchProblem :=
  if o.batchSize == 0 || maxBatchSize < o.batchSize then some (.badSize o.batchSize)
  else if o.concurrency == 0 || maxConcurrency < o.concurrency then
    some (.badConcurrency o.concurrency)
  else if o.timeout == 0 then some .noTime
  else none

/-- The fields of the options in their order. -/
def fields : List (List String) := [["batch_size"], ["concurrency"], ["batch_timeout_secs"]]

/-- Options from a document; what is missing has its default. -/
def ofDocument? (d : Document) : Option BatchOptions := do
  let r ← d.record? fields
  let batchSize ← r.defaulted "batch_size" 4 (·.nat? natMax64)
  let concurrency ← r.defaulted "concurrency" 3 (·.nat? natMax64)
  let timeout ← r.defaulted "batch_timeout_secs" 60 (·.nat? natMax64)
  pure ⟨batchSize, concurrency, timeout⟩

/-- Options as JSON. -/
def json (o : BatchOptions) : Json :=
  .object [("batch_size", .nat o.batchSize), ("concurrency", .nat o.concurrency),
    ("batch_timeout_secs", .nat o.timeout)]

end BatchOptions

/-- Folders whose files matter more for a tour. -/
def touredFolders : List String := ["src", "lib", "app", "core", "source", "pkg"]

/-- The number of elements from which on a file does not gain importance. -/
def maxCountedElements : Nat := 30

/-- How much a file matters for the tour of a project. -/
def importance (p : Project) (o : Outline) : Int :=
  let s := Text.lower o.file.toList
  (if p.isEntryPoint o.file then 100 else 0) +
    (if (Path.folders s).any fun f => touredFolders.contains (String.ofList f) then 20 else 0) +
    2 * (min o.elementCount maxCountedElements : Nat) -
    (if mentions testHints s then 50 else 0)

/-- The files of a tour, the most important first; files of one importance keep their order. -/
def touredFiles (p : Project) : List String :=
  (fallingBy (importance p) (p.files.filter fun o => !o.isEmpty && !isNoise o.file)).map
    Outline.file

/-- A list in pieces of `size + 1` items, of which only the last may be shorter. -/
def pieces (size : Nat) : List α → List (List α)
  | [] => []
  | a :: rest => (a :: rest.take size) :: pieces size (rest.drop size)
termination_by items => items.length
decreasing_by simp only [List.length_cons, List.length_drop]; omega

/-- A list in chunks of a size, or of one where the size is zero. -/
def chunks (size : Nat) (items : List α) : List (List α) := pieces (size - 1) items

/-- Files that go into one request, with their digest. -/
structure Batch where
  files : List String
  digest : String
  deriving DecidableEq, Inhabited

/-- The batches of a project. -/
def plan (p : Project) (options : BatchOptions) : List Batch :=
  (chunks options.batchSize (touredFiles p)).map fun files => ⟨files, p.digest files⟩

/-- What the service is told before it sees a batch. -/
def batchPrompt : String := "\n".intercalate [
  "You are writing a guided tour of a codebase for a developer who is new to it.",
  "You receive a JSON digest of a few source files: their classes, functions, methods,",
  "imports and exports, with 1-based line numbers.",
  "",
  "Respond with ONLY a JSON array. Each element is an object:",
  "\x7b\"title\": string, \"file\": string, \"line\": number, \"description\": string\x7d",
  "",
  "Rules:",
  "- Use only file paths that appear in the digest, exactly as written.",
  "- Point `line` at the element you describe, using the digest's line numbers.",
  "- Write one to three steps per file, for its most important elements.",
  "- Descriptions are Markdown, two to four sentences: what the code does and how it",
  "  fits into the rest of the project.",
  "- Do not write a welcome or introduction step."]

/-- What the service is asked about a batch. -/
def Batch.request (b : Batch) (model : Option String) (project : String) : Request :=
  .prompt model batchPrompt
    ("Project: " ++ project ++ "\n\nWrite tour steps for these " ++ toString b.files.length ++
      " files. Structural digest (JSON):\n" ++ b.digest)

end GuidedTour
