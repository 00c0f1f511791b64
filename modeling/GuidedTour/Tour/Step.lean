import GuidedTour.Json.Record
import GuidedTour.Text.Basic

namespace GuidedTour

/-!
# Steps of a tour

* `Draft` — a step as the text service wrote it; nothing in it is trusted. It is read leniently:
  missing fields have defaults, a line may be any number or a text that holds one, and an unreadable
  line or selection counts as none;
* `Step` — a step that has been checked;
* `Selection.normalized` — a selection with lines from 1 on and the end line not before the start.
-/

/-- A place in a file: a line counted from 1 and a column counted from 0. -/
structure Position where
  line : Nat
  character : Nat
  deriving DecidableEq, Repr, Inhabited

/-- A range of places. -/
structure Selection where
  start : Position
  stop : Position
  deriving DecidableEq, Repr, Inhabited

namespace Position

/-- A place as JSON. -/
def json (p : Position) : Json :=
  .object [("line", .nat p.line), ("character", .nat p.character)]

/-- A place from a document. -/
def ofDocument? (d : Document) : Option Position := do
  let r ← d.record? [["line"], ["character"]]
  let line ← r.required "line" (·.nat? natMax64)
  let character ← r.required "character" (·.nat? natMax64)
  pure ⟨line, character⟩

end Position

namespace Selection

/-- A selection as JSON. -/
def json (s : Selection) : Json := .object [("start", s.start.json), ("end", s.stop.json)]

/-- A selection from a document. -/
def ofDocument? (d : Document) : Option Selection := do
  let r ← d.record? [["start"], ["end"]]
  let start ← r.required "start" Position.ofDocument?
  let stop ← r.required "end" Position.ofDocument?
  pure ⟨start, stop⟩

/-- Lines are at least 1 and the last line is not before the first. -/
def normalized (s : Selection) : Selection :=
  let first := max s.start.line 1
  ⟨{ s.start with line := first }, { s.stop with line := max s.stop.line first }⟩

/-- The same columns with both lines mapped. -/
def mapLines (f : Nat → Nat) (s : Selection) : Selection :=
  ⟨{ s.start with line := f s.start.line }, { s.stop with line := f s.stop.line }⟩

end Selection

/-- A step as the text service wrote it. -/
structure Draft where
  title : String := ""
  file : String := ""
  line : Option Int := none
  description : String := ""
  selection : Option Selection := none
  deriving DecidableEq, Inhabited

/-- A step of a tour. -/
structure Step where
  title : String
  file : String
  line : Option Nat
  description : String
  selection : Option Selection
  deriving DecidableEq, Inhabited

/-- The line that a text holds: an integer of 64 bits, else the integer nearest to a number. -/
def lineOfText? (s : List Char) : Option Int :=
  let s := Text.trim s
  (Numeral.readInt int64Min int64Max s).or ((Numeral.readBinary s).map Binary.nearestInt64)

/-- The line that a document gives, as an integer of 64 bits. -/
def lineOf? : Document → Option Int
  | .number (some (.int z)) => some (clampInt64 z)
  | .number (some (.real x)) => some x.nearestInt64
  | .string (some s) => lineOfText? s.toList
  | _ => none

namespace Draft

/-- The fields of a draft in their order. The file may also be called path. -/
def fields : List (List String) :=
  [["title"], ["file", "path"], ["line"], ["description"], ["selection"]]

/-- A draft from a document. -/
def ofDocument? (d : Document) : Option Draft := do
  let r ← d.record? fields
  let title ← r.defaulted "title" "" (·.text?)
  let file ← r.defaulted "file" "" (·.text?)
  let line ← r.defaulted "line" none fun v => some (lineOf? v)
  let description ← r.defaulted "description" "" (·.text?)
  let selection ← r.defaulted "selection" none fun v => some (Selection.ofDocument? v)
  pure ⟨title, file, line, description, selection⟩

/-- A draft as JSON, with every field. -/
def json (d : Draft) : Json :=
  .object [("title", .string d.title), ("file", .string d.file), ("line", Json.orNull .int d.line),
    ("description", .string d.description), ("selection", Json.orNull Selection.json d.selection)]

end Draft

/-- A member that is left out where there is nothing to say. -/
def Json.optionalMember (key : String) (f : α → Json) : Option α → List (String × Json)
  | none => []
  | some a => [(key, f a)]

namespace Step

/-- The fields of a step in their order. -/
def fields : List (List String) := [["title"], ["file"], ["line"], ["description"], ["selection"]]

/-- A step from a document. -/
def ofDocument? (d : Document) : Option Step := do
  let r ← d.record? fields
  let title ← r.required "title" (·.text?)
  let file ← r.defaulted "file" "" (·.text?)
  let line ← r.nullable "line" (·.nat? natMax64)
  let description ← r.required "description" (·.text?)
  let selection ← r.nullable "selection" Selection.ofDocument?
  pure ⟨title, file, line, description, selection⟩

/-- A step as JSON, without an empty file, line or selection. -/
def json (s : Step) : Json :=
  .object ([("title", .string s.title)] ++
    (if s.file.isEmpty then [] else [("file", .string s.file)]) ++
    Json.optionalMember "line" .nat s.line ++
    [("description", .string s.description)] ++
    Json.optionalMember "selection" Selection.json s.selection)

end Step

end GuidedTour
