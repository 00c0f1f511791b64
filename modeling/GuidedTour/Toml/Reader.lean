import GuidedTour.Toml.Scalar

namespace GuidedTour.Toml

/-!
# Reading TOML

* `readKey` — a key with its dots;
* `readValue` — a value, with room for so many more arrays and tables inside one another;
* `parse` — the table that a whole text spells.

Values, items and members are read by functions that call one another. Each call is given one step
less than its caller had, and every step takes at least one character, so as many steps as there are
characters are enough.
-/

/-- Characters of keys without quotes. -/
def isBare (c : Char) : Bool := c.isAlphanum || c == '-' || c == '_'

/-- One part of a key. -/
def readPart (s : List Char) : Option (String × List Char) :=
  match s with
  | '"' :: rest => readLine '"' [] rest
  | '\'' :: rest => readLine '\'' [] rest
  | _ =>
    let part := s.takeWhile isBare
    if part.isEmpty then none else some (String.ofList part, s.drop part.length)

/-- A key in parts, with the gaps around them; `done` holds the parts so far, last one first. -/
def readParts : Nat → List String → List Char → Option (List String × List Char)
  | 0, _, _ => none
  | steps + 1, done, s =>
    match readPart (skipGap s) with
    | none => none
    | some (part, s) =>
      match skipGap s with
      | '.' :: s => readParts steps (part :: done) s
      | s => some (part :: done, s)

/-- How many parts a key may have, and how many arrays and tables may lie inside one another. -/
def maxDepth : Nat := 79

/-- A key: its path and its last part. -/
def readKey (s : List Char) : Option ((List String × String) × List Char) :=
  match readParts (s.length + 1) [] s with
  | some (last :: path, s) =>
    if maxDepth < path.length + 1 then none else some ((path.reverse, last), s)
  | _ => none

/-- The text after gaps, line ends and comments. -/
def skipLines (inComment : Bool) : List Char → List Char
  | [] => []
  | c :: s =>
    if c == '\n' then skipLines false s
    else if c == '\r' && s.head? == some '\n' then skipLines false s
    else if inComment then if isPlain c then skipLines true s else c :: s
    else if isGap c then skipLines false s
    else if c == '#' then skipLines true s
    else c :: s

/-- A value that is neither array nor table. -/
def readScalar (s : List Char) : Option (Toml × List Char) :=
  match s with
  | 't' :: 'r' :: 'u' :: 'e' :: rest => some (.boolean true, rest)
  | 'f' :: 'a' :: 'l' :: 's' :: 'e' :: rest => some (.boolean false, rest)
  | c :: _ =>
    if c == '"' || c == '\'' then (readString c s).map fun (text, rest) => (.string text, rest)
    else (readMoment s).or (readNumber s)
  | [] => none

mutual

/-- A value. -/
def readValue : Nat → Nat → List Char → Option (Toml × List Char)
  | 0, _, _ => none
  | steps + 1, room, s =>
    match s with
    | '[' :: s => if room == 0 then none else readItems steps (room - 1) [] (skipLines false s)
    | '\x7b' :: s =>
      if room == 0 then none
      else match skipGap s with
        | '\x7d' :: s => some (.table [], s)
        | s => readMembers steps (room - 1) [] s
    | s => readScalar s

/-- The items of an array up to its bracket, before which a comma may stand. -/
def readItems : Nat → Nat → List Toml → List Char → Option (Toml × List Char)
  | 0, _, _, _ => none
  | _ + 1, _, done, ']' :: s => some (.array done.reverse, s)
  | steps + 1, room, done, s =>
    match readValue steps room s with
    | none => none
    | some (item, s) =>
      match skipLines false s with
      | ',' :: s => readItems steps room (item :: done) (skipLines false s)
      | ']' :: s => some (.array (item :: done).reverse, s)
      | _ => none

/-- The members of a table on one line up to its brace. -/
def readMembers : Nat → Nat → Members → List Char → Option (Toml × List Char)
  | 0, _, _, _ => none
  | steps + 1, room, done, s =>
    match readKey s with
    | some ((path, key), '=' :: s) =>
      match readValue steps room (skipGap s) with
      | none => none
      | some (value, s) =>
        match putKey path key value done with
        | none => none
        | some members =>
          match skipGap s with
          | ',' :: s => readMembers steps room members s
          | '\x7d' :: s => some (.table (closeMembers members), s)
          | _ => none
    | _ => none

end

/-- What follows the rest of a line that has nothing but a gap and a comment. -/
def afterLine? (s : List Char) : Option (List Char) :=
  match skipGap s with
  | [] => some []
  | '#' :: s =>
    let s := s.dropWhile isPlain
    if s.isEmpty then some [] else afterLineEnd? s
  | s => afterLineEnd? s

/-- The tables while a text is read, and the path of the one that was opened last. -/
structure Reading where
  root : Members
  open? : List String

/-- A line `path.key = value`. -/
def readAssignment (r : Reading) (s : List Char) : Option (Reading × List Char) :=
  match readKey s with
  | some ((path, key), '=' :: s) => do
    let s := skipGap s
    let (value, s) ← readValue (s.length + 1) maxDepth s
    let root ← inOpenTable r.open? (putKey path key value) r.root
    pure (⟨root, r.open?⟩, ← afterLine? s)
  | _ => none

/-- A line `[path.key]`, after its bracket. -/
def readTableHeader (r : Reading) (s : List Char) : Option (Reading × List Char) :=
  match readKey s with
  | some ((path, key), ']' :: s) => do
    let root ← openTable path key r.root
    pure (⟨root, path ++ [key]⟩, ← afterLine? s)
  | _ => none

/-- A line `[[path.key]]`, after its brackets. -/
def readRowHeader (r : Reading) (s : List Char) : Option (Reading × List Char) :=
  match readKey s with
  | some ((path, key), ']' :: ']' :: s) => do
    let root ← openRow path key r.root
    pure (⟨root, path ++ [key]⟩, ← afterLine? s)
  | _ => none

/-- One line. -/
def readOne (r : Reading) (s : List Char) : Option (Reading × List Char) :=
  match s with
  | '[' :: '[' :: rest => readRowHeader r rest
  | '[' :: rest => readTableHeader r rest
  | _ => readAssignment r s

/-- All lines. -/
def readAll : Nat → Reading → List Char → Option Reading
  | 0, _, _ => none
  | steps + 1, r, s =>
    match skipLines false s with
    | [] => some r
    | s =>
      match readOne r s with
      | some (r, s) => readAll steps r s
      | none => none

/-- The table that a whole text spells; a mark of the byte order may stand before it. -/
def parse (s : List Char) : Option Toml :=
  let s := match s with
    | '\uFEFF' :: rest => rest
    | _ => s
  (readAll (s.length + 1) ⟨[], []⟩ s).map fun r => .table (closeMembers r.root)

end GuidedTour.Toml
