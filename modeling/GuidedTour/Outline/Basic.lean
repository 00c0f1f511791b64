import GuidedTour.Outline.Element

namespace GuidedTour

/-!
# Outlines and projects

* `Outline` — what is known of one file: its elements, its import and export statements and the
  number of its lines;
* `Project` — the outlines of a run with the entry points among them and the modules each file
  refers to.
-/

/-- The structure of one file. -/
structure Outline where
  file : String
  language : String
  elements : List Element
  imports : List String
  exports : List String
  lineCount : Nat
  deriving Inhabited

namespace Outline

/-- How many elements there are, nested ones included. -/
def elementCount (o : Outline) : Nat := Element.totalCounts o.elements

/-- Whether the file has no element at all. -/
def isEmpty (o : Outline) : Bool := o.elements.isEmpty

/-- An outline as JSON. -/
def json (o : Outline) : Json :=
  .object [("file", .string o.file), ("language", .string o.language),
    ("elements", .array (Element.jsons o.elements)), ("imports", .texts o.imports),
    ("exports", .texts o.exports), ("lineCount", .nat o.lineCount)]

/-- The fields of an outline in their order. -/
def fields : List (List String) :=
  [["file"], ["language"], ["elements"], ["imports"], ["exports"], ["lineCount"]]

/-- An outline from a document. -/
def ofDocument? (d : Document) : Option Outline := do
  let r ← d.record? fields
  let file ← r.required "file" (·.text?)
  let language ← r.required "language" (·.text?)
  let elements ← r.required "elements" (·.list? Element.ofDocument?)
  let imports ← r.required "imports" (·.list? (·.text?))
  let exports ← r.required "exports" (·.list? (·.text?))
  let lineCount ← r.defaulted "lineCount" 0 (·.nat? natMax64)
  pure ⟨file, language, elements, imports, exports, lineCount⟩

end Outline

/-- Puts a text into a list that is in order, unless it is there. -/
def insertText (s : String) : List String → List String
  | [] => [s]
  | t :: rest =>
    if s < t then s :: t :: rest
    else if s == t then t :: rest
    else t :: insertText s rest

/-- The texts of a list in order, each one once. -/
def orderedTexts (items : List String) : List String :=
  items.foldl (fun done s => insertText s done) []

/-- Puts an entry into a table that is in order of its keys. An entry with the same key gives
way. -/
def insertEntry (key : String) (value : α) : List (String × α) → List (String × α)
  | [] => [(key, value)]
  | (k, v) :: rest =>
    if key < k then (key, value) :: (k, v) :: rest
    else if key == k then (key, value) :: rest
    else (k, v) :: insertEntry key value rest

/-- The entries of a list in order of their keys, the last one of each key. -/
def orderedEntries (entries : List (String × α)) : List (String × α) :=
  entries.foldl (fun done entry => insertEntry entry.1 entry.2 done) []

/-- The structure of a whole project. Entry points and dependencies are in order, without
repetition. -/
structure Project where
  root : String
  files : List Outline
  entryPoints : List String
  dependencies : List (String × List String)
  deriving Inhabited

namespace Project

/-- The outline of a file: the first one with that path. -/
def file? (p : Project) (file : String) : Option Outline := p.files.find? fun o => o.file == file

/-- Whether a file was outlined. -/
def containsFile (p : Project) (file : String) : Bool := p.files.any fun o => o.file == file

/-- Whether a file is an entry point. -/
def isEntryPoint (p : Project) (file : String) : Bool := p.entryPoints.contains file

/-- The languages of the files, each one once, as they first occur. -/
def languages (p : Project) : List String :=
  p.files.foldl (fun seen o => if seen.contains o.language then seen else seen ++ [o.language]) []

/-- A project as JSON. -/
def json (p : Project) : Json :=
  .object [("root", .string p.root), ("files", .array (p.files.map Outline.json)),
    ("entryPoints", .texts p.entryPoints),
    ("dependencies", .object (p.dependencies.map fun entry => (entry.1, .texts entry.2)))]

/-- The table of dependencies from a document. -/
def dependencies? : Document → Option (List (String × List String))
  | .object members => do
    let entries ← members.mapM fun (key, value) => do
      let key ← key
      let modules ← value.list? (·.text?)
      pure (key, modules)
    pure (orderedEntries entries)
  | _ => none

/-- The fields of a project in their order. -/
def fields : List (List String) := [["root"], ["files"], ["entryPoints"], ["dependencies"]]

/-- A project from a document. -/
def ofDocument? (d : Document) : Option Project := do
  let r ← d.record? fields
  let root ← r.required "root" (·.text?)
  let files ← r.required "files" (·.list? Outline.ofDocument?)
  let entryPoints ← r.required "entryPoints" (·.list? (·.text?))
  let dependencies ← r.required "dependencies" dependencies?
  pure ⟨root, files, orderedTexts entryPoints, dependencies⟩

end Project

end GuidedTour
