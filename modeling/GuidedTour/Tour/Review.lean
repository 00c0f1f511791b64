import GuidedTour.Outline.Basic
import GuidedTour.Path
import GuidedTour.Tour.Step

namespace GuidedTour

/-!
# Reviewing drafts

Drafts are reconciled with the files of the project.

* `knownFile?` — the file of the project that a draft points at: the path itself once it is tidied
  up, else the first file with the same name, letter case aside;
* `reviewOne` — the step that a draft becomes, if it points at a file of the project. Only the first
  draft of a tour may stand without one, and only if its title welcomes the reader;
* `review` — all drafts up to the greatest number of steps, in order.
-/

/-- How strict a review is: how many drafts are looked at, and whether lines are held inside their
file. -/
structure ReviewOptions where
  maxSteps : Nat := 50
  strictLineBounds : Bool := false
  deriving DecidableEq, Repr, Inhabited

namespace ReviewOptions

/-- The fields of the options in their order. -/
def fields : List (List String) := [["max_steps"], ["strict_line_bounds"]]

/-- Options from a document; what is missing has its default. -/
def ofDocument? (d : Document) : Option ReviewOptions := do
  let r ← d.record? fields
  let maxSteps ← r.defaulted "max_steps" 50 (·.nat? natMax64)
  let strictLineBounds ← r.defaulted "strict_line_bounds" false (·.bool?)
  pure ⟨maxSteps, strictLineBounds⟩

/-- Options as JSON. -/
def json (o : ReviewOptions) : Json :=
  .object [("max_steps", .nat o.maxSteps), ("strict_line_bounds", .bool o.strictLineBounds)]

end ReviewOptions

/-- The word in the title of the first step of every tour. -/
def welcomeMarker : String := "Welcome"

/-- A path as files are listed: no blanks around it, slashes for backslashes, and neither `./` nor
slashes at the start. -/
def tidyPath (file : String) : String :=
  file.mapText fun s => (Text.dropDotSlash (Text.slashed (Text.trim s))).dropWhile (· == '/')

/-- Whether two paths end in the same name, the case of ASCII letters aside. -/
def sameName (file other : String) : Bool :=
  Text.sameIgnoringCase (Path.baseName file.toList) (Path.baseName other.toList)

/-- The file of the project that a path points at. -/
def knownFile? (p : Project) (file : String) : Option String :=
  let tidy := tidyPath file
  if tidy.isEmpty then none
  else if p.containsFile tidy then some tidy
  else (p.files.map Outline.file).find? fun known => sameName known tidy

/-- The step a draft becomes in a file, its lines held at or below a greatest one. -/
def Draft.step (d : Draft) (file : String) (maxLine : Option Nat) : Step :=
  let clamp (line : Nat) : Nat := match maxLine with
    | some most => min line most
    | none => line
  { title := d.title
    file
    line := d.line.map fun line => clamp (max line 1).toNat
    description := d.description
    selection := d.selection.map fun s => s.normalized.mapLines clamp }

/-- The greatest line in a file under strict bounds; a file without lines has none. -/
def maxLine? (p : Project) (options : ReviewOptions) (file : String) : Option Nat :=
  if options.strictLineBounds then
    ((p.file? file).map Outline.lineCount).filter fun count => 0 < count
  else none

/-- Whether a draft welcomes the reader. -/
def Draft.isWelcome (d : Draft) : Bool := d.title.hasText welcomeMarker

/-- The step that the draft at an index becomes. -/
def reviewOne (p : Project) (options : ReviewOptions) (index : Nat) (d : Draft) : Option Step :=
  if index == 0 && d.isWelcome then some (d.step d.file none)
  else (knownFile? p d.file).map fun file => d.step file (maxLine? p options file)

/-- The steps that drafts become, counted from an index. -/
def reviewFrom (p : Project) (options : ReviewOptions) (index : Nat) : List Draft → List Step
  | [] => []
  | d :: rest => (reviewOne p options index d).toList ++ reviewFrom p options (index + 1) rest

/-- The steps of a tour. -/
def review (p : Project) (options : ReviewOptions) (drafts : List Draft) : List Step :=
  reviewFrom p options 0 (drafts.take options.maxSteps)

end GuidedTour
