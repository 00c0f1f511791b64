import GuidedTour.Glob.Basic

namespace GuidedTour.Glob

/-!
# Reading glob patterns

* `Dialect` — whether wildcards stop at slashes, and whether a bracket that is never closed stands
  for itself;
* `Pattern.parse?` — the pattern that a text spells. There is none where a bracket or brace is not
  closed, a brace was never opened, a range runs backwards or a backslash ends the text.

Two stars stand for folders only where slashes or the ends of the pattern (or of a branch) are
around them; elsewhere they are two wildcards.
-/

/-- How patterns are to be read. -/
structure Dialect where
  bounded : Bool
  looseBrackets : Bool

/-- Patterns over whole paths. -/
def Dialect.paths : Dialect := ⟨false, false⟩

/-- Patterns in ignore files. -/
def Dialect.ignoreFile : Dialect := ⟨true, true⟩

/-- A pattern that is being read. `current` is the row of parts being read and `rows` are those
before it in the same braces, `outer` are the rows around the braces; all are kept backwards.
`last` is the character read last. -/
structure Reading where
  current : List Token
  rows : List (List Token)
  outer : List (List Token × List (List Token))
  last : Option Char

namespace Reading

/-- Before the first character. -/
def start : Reading := ⟨[], [], [], none⟩

/-- With one more part. -/
def push (r : Reading) (t : Token) : Reading := { r with current := t :: r.current }

/-- Whether braces are open. -/
def inBraces (r : Reading) : Bool := !r.outer.isEmpty

/-- After an opening brace. -/
def openBrace (r : Reading) : Reading :=
  { r with current := [], rows := [], outer := (r.current, r.rows) :: r.outer }

/-- After a comma inside braces. -/
def nextRow (r : Reading) : Reading :=
  { r with current := [], rows := r.current.reverse :: r.rows }

/-- After a closing brace, if one is open. -/
def closeBrace? (r : Reading) : Option Reading :=
  match r.outer with
  | (current, rows) :: outer =>
    let row : Token := .branches (r.current.reverse :: r.rows).reverse
    some { r with current := row :: current, rows, outer }
  | [] => none

/-- Two stars where folders cannot be meant. -/
def pushTwoStars (r : Reading) : Reading := (r.push .many).push .many

/-- Two stars after a slash take its place; after other folders they add nothing. -/
def replaceSlash (r : Reading) (t : Token) : Reading :=
  match r.current with
  | .foldersBefore :: _ => r
  | .inside :: _ => r
  | _ :: rest => { r with current := t :: rest }
  | [] => r.push t

/-- Two stars, with the text behind them; the text left is handed back. `before` is the character in
front of the stars. -/
def twoStars (r : Reading) (before : Option Char) (s : List Char) : Reading × List Char :=
  if r.current.isEmpty then
    match s with
    | [] => (r.push .foldersBefore, [])
    | '/' :: rest => ({ r.push .foldersBefore with last := some '/' }, rest)
    | _ => (r.pushTwoStars, s)
  else if before != some '/' && (!r.inBraces || (before != some ',' && before != some '\x7b')) then
    (r.pushTwoStars, s)
  else
    match s with
    | [] => (r.replaceSlash .inside, [])
    | '/' :: rest => ({ r.replaceSlash .foldersBetween with last := some '/' }, rest)
    | c :: _ =>
      if r.inBraces && (c == ',' || c == '\x7d') then (r.replaceSlash .inside, s)
      else (r.pushTwoStars, s)

end Reading

/-- The ranges of a bracket up to its end, and what follows. `ranges` are those so far, backwards;
`first` says that none was read, and `inRange` that a hyphen stands before the next character.
`none` where the bracket does not end, and a range that runs backwards is an error. -/
def readRanges (first inRange : Bool) (ranges : List (Char × Char)) :
    List Char → Except Unit (Option (List (Char × Char) × List Char))
  | [] => .ok none
  | c :: s =>
    if c == ']' && !first then
      .ok (some ((if inRange then ('-', '-') :: ranges else ranges).reverse, s))
    else if c == '-' && !first && !inRange then readRanges false true ranges s
    else if inRange then
      match ranges with
      | (low, _) :: rest =>
        if c < low then .error () else readRanges false false ((low, c) :: rest) s
      | [] => .error ()
    else readRanges false false ((c, c) :: ranges) s

/-- A bracket after its opening. -/
def readBracket (s : List Char) : Except Unit (Option (Token × List Char)) :=
  let (negated, s) := match s with
    | '!' :: rest => (true, rest)
    | '^' :: rest => (true, rest)
    | _ => (false, s)
  (readRanges true false [] s).map fun found =>
    found.map fun (ranges, rest) => (.oneOf negated ranges, rest)

/-- Reads on; `steps` bounds the number of parts, of which there are at most as many as there are
characters. -/
def readFrom (dialect : Dialect) : Nat → Reading → List Char → Option Reading
  | _, r, [] => some r
  | 0, _, _ :: _ => none
  | steps + 1, r, c :: s =>
    let before := r.last
    let r := { r with last := some c }
    if c == '?' then readFrom dialect steps (r.push .any) s
    else if c == '*' then
      match s with
      | '*' :: s =>
        let (r, s) := r.twoStars before s
        readFrom dialect steps r s
      | _ => readFrom dialect steps (r.push .many) s
    else if c == '[' then
      match readBracket s with
      | .error _ => none
      | .ok (some (t, s)) => readFrom dialect steps { r.push t with last := some ']' } s
      | .ok none =>
        if dialect.looseBrackets then readFrom dialect steps (r.push (.literal '[')) s else none
    else if c == '\x7b' then readFrom dialect steps r.openBrace s
    else if c == '\x7d' then r.closeBrace?.bind fun r => readFrom dialect steps r s
    else if c == ',' && r.inBraces then readFrom dialect steps r.nextRow s
    else if c == '\\' then
      match s with
      | [] => none
      | d :: s => readFrom dialect steps { r.push (.literal d) with last := some d } s
    else readFrom dialect steps (r.push (.literal c)) s

/-- The pattern that a text spells. -/
def Pattern.parse? (dialect : Dialect) (s : List Char) : Option Pattern :=
  (readFrom dialect s.length .start s).bind fun r =>
    if r.inBraces then none else some ⟨r.current.reverse, dialect.bounded⟩

end GuidedTour.Glob
