import GuidedTour.Json.Record
import GuidedTour.Language
import GuidedTour.Text.Lower
import GuidedTour.Workspace.Noise

namespace GuidedTour

/-!
# Which files come first

* `DiscoveryOptions` — which files a tour looks at;
* `pathScore` — how much a path promises, from its words alone;
* `prioritize` — paths in falling order of their score; paths of one score keep their order;
* `isEntryPath` — whether a path is named like an entry point;
* `selectFiles` — what remains of the candidates of a discovery.
-/

/-- The extensions that are looked for unless others are named. -/
def defaultExtensions : List String :=
  ["ts", "tsx", "js", "jsx", "mjs", "cjs", "py", "rs", "go", "java", "kt", "cs", "rb", "php",
    "swift", "c", "h", "cpp", "hpp"]

/-- Which files a tour looks at. A limit of zero is no limit. -/
structure DiscoveryOptions where
  includeExtensions : List String := defaultExtensions
  excludePatterns : List String := []
  limit : Nat := 0
  deriving DecidableEq, Repr, Inhabited

/-- Candidates that are listed for each file that is wanted. -/
def candidateFactor : Nat := 3

namespace DiscoveryOptions

/-- How many candidates are listed at most, where there is a limit. -/
def candidateCap (o : DiscoveryOptions) : Option Nat :=
  if o.limit == 0 then none else some (min (o.limit * candidateFactor) natMax64)

/-- The fields of the options in their order. -/
def fields : List (List String) := [["include_extensions"], ["exclude_patterns"], ["limit"]]

/-- Options from a document; what is missing has its default. -/
def ofDocument? (d : Document) : Option DiscoveryOptions := do
  let r ← d.record? fields
  let includeExtensions ← r.defaulted "include_extensions" defaultExtensions (·.list? (·.text?))
  let excludePatterns ← r.defaulted "exclude_patterns" [] (·.list? (·.text?))
  let limit ← r.defaulted "limit" 0 (·.nat? natMax64)
  pure ⟨includeExtensions, excludePatterns, limit⟩

/-- Options as JSON. -/
def json (o : DiscoveryOptions) : Json :=
  .object [("include_extensions", .texts o.includeExtensions),
    ("exclude_patterns", .texts o.excludePatterns), ("limit", .nat o.limit)]

end DiscoveryOptions

/-- Words that hint at an entry point. -/
def entryHints : List String := ["index", "main", "app"]

/-- Folders that hold sources. -/
def sourceFolders : List String := ["src", "lib", "source", "sources", "core", "pkg"]

/-- Words that hint at tests. -/
def testHints : List String := ["test", "spec", "__tests__", "__mocks__", "fixture"]

/-- Words in a file name that hint at the configuration of a build. -/
def buildHints : List String :=
  ["webpack", "rollup", "vite.config", "babel.config", "jest.config", "vitest.config", "tsconfig",
    "eslint", "prettier", "gulpfile", "gruntfile", "setup.py", "build.rs", ".config."]

/-- Words in a file name that hint at types. -/
def typeHints : List String := ["types", "typings", "interface", "model"]

/-- Whether one of the words occurs in a text. -/
def mentions (words : List String) (s : List Char) : Bool :=
  words.any fun word => Text.contains word.toList s

/-- What a path promises. -/
def pathScore (path : String) : Int :=
  let s := Text.lower (Text.slashed path.toList)
  let parts := Text.splitAll '/' s
  let folders := parts.dropLast
  let name := parts.getLast?.getD []
  (if mentions entryHints s then 100 else 0) +
    (if folders.any fun f => sourceFolders.contains (String.ofList f) then 50 else 0) -
    (if mentions testHints s then 50 else 0) - 2 * folders.length -
    (if mentions buildHints name then 30 else 0) + (if mentions typeHints name then 10 else 0)

/-- A list in falling order of a score; items of one score keep their order. -/
def fallingBy (score : α → Int) (items : List α) : List α :=
  ((items.map fun a => (score a, a)).mergeSort fun a b => b.1 ≤ a.1).map Prod.snd

/-- Paths in falling order of what they promise. -/
def prioritize (paths : List String) : List String := fallingBy pathScore paths

/-- Whether a path is named like an entry point, whatever its extension and letter case. -/
def isEntryPath (path : String) : Bool :=
  match Path.stem? path.toList with
  | some stem => entryHints.any fun hint => Text.sameIgnoringCase stem hint.toList
  | none => false

/-- The files of a discovery, from the candidates that were listed. -/
def selectFiles (options : DiscoveryOptions) (candidates : List String) : List String :=
  let files := prioritize (candidates.filter fun path => !isNoise path)
  if options.limit == 0 then files else files.take options.limit

end GuidedTour
