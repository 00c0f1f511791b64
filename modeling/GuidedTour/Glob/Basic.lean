namespace GuidedTour.Glob

/-!
# Glob patterns

* `Token` — the parts of a pattern;
* `acceptsAll` — whether a row of parts matches the beginning of some bytes so that a test holds of
  what is left. Each part hands the rest on to the test that the parts after it make up;
* `Pattern.isMatch` — whether a pattern matches a whole path.

A path is matched byte by byte, so a question mark takes one byte of a character outside ASCII. A
wildcard crosses slashes unless the pattern says otherwise; the parts that stand for folders always
do.
-/

/-- A part of a pattern. -/
inductive Token where
  /-- The character itself. -/
  | literal (c : Char)
  /-- Any one byte. -/
  | any
  /-- Any bytes. -/
  | many
  /-- Any folders at the start of a path, or none. -/
  | foldersBefore
  /-- A slash and anything below. -/
  | inside
  /-- A slash, and any folders after it or none. -/
  | foldersBetween
  /-- One byte inside the ranges, or outside them. -/
  | oneOf (negated : Bool) (ranges : List (Char × Char))
  /-- One of several rows of parts. -/
  | branches (rows : List (List Token))
  deriving Inhabited

/-- The byte of a slash. -/
def slash : UInt8 := 47

/-- The bytes after some others, if they begin with them. -/
def afterBytes : List UInt8 → List UInt8 → Option (List UInt8)
  | [], s => some s
  | b :: bs, c :: s => if b == c then afterBytes bs s else none
  | _ :: _, [] => none

/-- Whether the test holds of the bytes or of an end of them, the bytes dropped being allowed. -/
def afterMany (allowed : UInt8 → Bool) (k : List UInt8 → Bool) : List UInt8 → Bool
  | [] => k []
  | b :: s => k (b :: s) || (allowed b && afterMany allowed k s)

/-- Whether the test holds of what follows some slash. -/
def afterSomeSlash (k : List UInt8 → Bool) : List UInt8 → Bool
  | [] => false
  | b :: s => (b == slash && k s) || afterSomeSlash k s

/-- Whether a byte lies in a range of characters. Of a character outside ASCII every byte counts on
its own: those before the last of the lower bound, those after the first of the upper bound, and
the bytes between these two. -/
def inByteRange (b : UInt8) (range : Char × Char) : Bool :=
  let low := String.utf8EncodeChar range.1
  let high := String.utf8EncodeChar range.2
  if range.1 == range.2 then low.contains b
  else
    low.dropLast.contains b || high.tail.contains b ||
      (low.getLast?.any (· ≤ b) && high.head?.any (b ≤ ·))

mutual

/-- Whether a part stands for nothing at all. -/
def Token.isVoid : Token → Bool
  | .branches rows => areVoid rows
  | _ => false

/-- Whether all parts of a row stand for nothing. -/
def isVoidRow : List Token → Bool
  | [] => true
  | t :: rest => t.isVoid && isVoidRow rest

/-- Whether all rows stand for nothing. -/
def areVoid : List (List Token) → Bool
  | [] => true
  | row :: rest => isVoidRow row && areVoid rest

end

mutual

/-- Whether a part matches the beginning of some bytes so that a test holds of the rest. With
`bounded` wildcards stop at slashes. -/
def Token.accepts (bounded : Bool) : Token → (List UInt8 → Bool) → List UInt8 → Bool
  | .literal c, k, s => (afterBytes (String.utf8EncodeChar c) s).any k
  | .any, k, s =>
    match s with
    | b :: rest => !(bounded && b == slash) && k rest
    | [] => false
  | .many, k, s => afterMany (fun b => !(bounded && b == slash)) k s
  | .foldersBefore, k, s => k s || afterSomeSlash k s
  | .inside, k, s =>
    match s with
    | b :: rest => b == slash && afterMany (fun _ => true) k rest
    | [] => false
  | .foldersBetween, k, s =>
    match s with
    | b :: rest => b == slash && (k rest || afterSomeSlash k rest)
    | [] => false
  | .oneOf negated ranges, k, s =>
    match s with
    | b :: rest => ranges.any (inByteRange b) != negated && k rest
    | [] => false
  | .branches rows, k, s => if areVoid rows then k s else acceptsSome bounded rows k s

/-- Whether the parts of a row match, one after another. -/
def acceptsAll (bounded : Bool) : List Token → (List UInt8 → Bool) → List UInt8 → Bool
  | [], k, s => k s
  | t :: rest, k, s => t.accepts bounded (acceptsAll bounded rest k) s

/-- Whether one of the rows matches; a row that stands for nothing does not count. -/
def acceptsSome (bounded : Bool) : List (List Token) → (List UInt8 → Bool) → List UInt8 → Bool
  | [], _, _ => false
  | row :: rest, k, s =>
    (!isVoidRow row && acceptsAll bounded row k s) || acceptsSome bounded rest k s

end

/-- A pattern: its parts, and whether wildcards stop at slashes. -/
structure Pattern where
  tokens : List Token
  bounded : Bool
  deriving Inhabited

/-- The bytes of a path. -/
def bytesOf (path : String) : List UInt8 := path.toUTF8.toList

/-- Whether a pattern matches a whole path. Two stars alone match everything. -/
def Pattern.isMatch (p : Pattern) (path : String) : Bool :=
  match p.tokens with
  | [.foldersBefore] => true
  | tokens => acceptsAll p.bounded tokens List.isEmpty (bytesOf path)

/-- A set of patterns matches what one of them matches. -/
abbrev Patterns := List Pattern

/-- Whether a set of patterns matches a path. -/
def Patterns.isMatch (ps : Patterns) (path : String) : Bool := ps.any fun p => p.isMatch path

end GuidedTour.Glob
