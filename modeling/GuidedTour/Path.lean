import GuidedTour.Text.Basic

namespace GuidedTour.Path

/-!
# Paths

Paths are texts with slashes.

* `components` — empty pieces and single dots are passed over, except a dot at the very start;
* `fileName?`, `stem?`, `extension?` — the last component, and its parts around the last dot. A
  name that begins with its only dot is all stem;
* `join` — a path under another; an absolute one replaces it.
-/

/-- A part of a path. -/
inductive Component where
  | root
  | here
  | up
  | name (s : List Char)
  deriving DecidableEq, Repr

/-- The component that a piece between slashes stands for, if it counts. -/
def component? (piece : List Char) : Option Component :=
  if piece.isEmpty || piece == ['.'] then none
  else if piece == ['.', '.'] then some .up
  else some (.name piece)

/-- What a path begins with before its first counted piece. -/
def leading (s : List Char) : List Component :=
  match s with
  | '/' :: _ => [.root]
  | '.' :: '/' :: _ => [.here]
  | ['.'] => [.here]
  | _ => []

/-- The components of a path. -/
def components (s : List Char) : List Component :=
  leading s ++ (Text.splitAll '/' s).filterMap component?

/-- The text of a component that is a name. -/
def Component.name? : Component → Option (List Char)
  | .name s => some s
  | _ => none

/-- The last component, if that is a name. -/
def fileName? (s : List Char) : Option (List Char) :=
  (components s).getLast?.bind Component.name?

/-- A name taken apart at its last dot: the part after it, if the part before it is not empty. -/
def splitName (name : List Char) : List Char × Option (List Char) :=
  let after := (name.reverse.takeWhile (· != '.')).reverse
  let before := name.take (name.length - after.length - 1)
  if before.isEmpty then (name, none) else (before, some after)

/-- The last name of a path without its extension. -/
def stem? (s : List Char) : Option (List Char) := (fileName? s).map fun name => (splitName name).1

/-- The extension of the last name of a path. -/
def extension? (s : List Char) : Option (List Char) :=
  (fileName? s).bind fun name => (splitName name).2

/-- The names of the components before the last one. -/
def folders (s : List Char) : List (List Char) :=
  (components s).dropLast.filterMap Component.name?

/-- A path under another one. -/
def join (base s : List Char) : List Char :=
  match s with
  | '/' :: _ => s
  | _ => if base.isEmpty || base.getLast? == some '/' then base ++ s else base ++ '/' :: s

/-- The text after the last slash. -/
def baseName (s : List Char) : List Char := (s.reverse.takeWhile (· != '/')).reverse

end GuidedTour.Path
