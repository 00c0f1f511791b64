import GuidedTour.Json.Printer
import GuidedTour.Json.Reader
import GuidedTour.Path
import GuidedTour.Text.Lower
import GuidedTour.Tour.Step

namespace GuidedTour

/-!
# Tours as files

* `slug` — a file name for a title: lower case, a hyphen for each run of blanks, word characters
  and hyphens only, and never empty;
* `Tour` — a tour with its steps;
* `Tour.toText`, `Tour.ofText?` — a tour as indented JSON and back;
* `Tour.pathIn` — where its file lies in a project.
-/

/-- The folder of a project that holds its tours, and the extension of their files. -/
def toursFolder : String := ".tours"

@[inherit_doc toursFolder]
def tourExtension : String := "tour"

/-- The address of the format of tour files. -/
def tourSchema : String := "https://aka.ms/codetour-schema"

/-- The slug of a title that leaves nothing. -/
def emptySlug : List Char := "tour".toList

/-- A hyphen for each run of blanks; `inRun` says whether a blank came just before. -/
def hyphenate (inRun : Bool) : List Char → List Char
  | [] => []
  | c :: s =>
    if Text.isBlank c then if inRun then hyphenate true s else '-' :: hyphenate true s
    else c :: hyphenate false s

/-- Whether a character may stand in a slug. -/
def isSlugChar (c : Char) : Bool := Text.isWord c || c == '-'

/-- The file name for a title. -/
def slug (title : List Char) : List Char :=
  let kept := (hyphenate false (Text.lower (Text.trim title))).filter isSlugChar
  if kept.isEmpty then emptySlug else kept

/-- A tour. -/
structure Tour where
  schema : String
  id : String
  title : String
  description : String
  steps : List Step
  deriving DecidableEq, Inhabited

namespace Tour

/-- A tour named after its title. -/
def titled (title description : String) (steps : List Step) : Tour :=
  ⟨tourSchema, title.mapText slug, title, description, steps⟩

/-- A tour as JSON. -/
def json (t : Tour) : Json :=
  .object [("$schema", .string t.schema), ("id", .string t.id), ("title", .string t.title),
    ("description", .string t.description), ("steps", .array (t.steps.map Step.json))]

/-- The fields of a tour in their order. -/
def fields : List (List String) := [["$schema"], ["id"], ["title"], ["description"], ["steps"]]

/-- A tour from a document. -/
def ofDocument? (d : Document) : Option Tour := do
  let r ← d.record? fields
  let schema ← r.defaulted "$schema" tourSchema (·.text?)
  let id ← r.required "id" (·.text?)
  let title ← r.required "title" (·.text?)
  let description ← r.defaulted "description" "" (·.text?)
  let steps ← r.required "steps" (·.list? Step.ofDocument?)
  pure ⟨schema, id, title, description, steps⟩

/-- The text of a tour file. -/
def toText (t : Tour) : String := String.ofList t.json.pretty

/-- The tour that a text holds. -/
def ofText? (s : String) : Option Tour := (Document.parse s.toList).bind ofDocument?

/-- The name of a tour file. -/
def fileName (t : Tour) : String := t.id ++ "." ++ tourExtension

/-- The path of a tour file below a root. -/
def pathIn (t : Tour) (root : String) : String :=
  String.ofList (Path.join (Path.join root.toList toursFolder.toList) t.fileName.toList)

end Tour

end GuidedTour
