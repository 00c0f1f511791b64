import GuidedTour.Json.Literal

namespace GuidedTour.Document

/-!
# Reading JSON

* `read` — the document at the start of a text, with what follows it;
* `parse` — the document that a whole text spells;
* `Json.parse` — the value that a whole text spells.

Values, items and members are read by three functions that call one another. Each call is given one
step less than its caller had, and every step takes at least one character, so as many steps as
there are characters are enough.
-/

/-- Space, tab, line feed and carriage return may stand between tokens. -/
def isGap (c : Char) : Bool := c == ' ' || c == '\n' || c == '\t' || c == '\r'

/-- The text without the gap at its start. -/
def skipGap (s : List Char) : List Char := s.dropWhile isGap

/-- The text after a word, if it begins with it. -/
def afterWord (word s : List Char) : Option (List Char) :=
  if word.isPrefixOf s then some (s.drop word.length) else none

mutual

/-- A value without a gap before it. -/
def readValue : Nat → List Char → Option (Document × List Char)
  | 0, _ => none
  | _, [] => none
  | steps + 1, c :: s =>
    if c == '[' then
      match skipGap s with
      | ']' :: s => some (.array [], s)
      | s => readItems steps [] s
    else if c == '\x7b' then
      match skipGap s with
      | '\x7d' :: s => some (.object [], s)
      | s => readMembers steps [] s
    else if c == '"' then (readString s).map fun (text, s) => (.string text, s)
    else if c == 'n' then (afterWord "ull".toList s).map fun s => (.null, s)
    else if c == 't' then (afterWord "rue".toList s).map fun s => (.bool true, s)
    else if c == 'f' then (afterWord "alse".toList s).map fun s => (.bool false, s)
    else (readNumber (c :: s)).map fun (literal, s) => (.number literal.value, s)

/-- The items of an array up to its bracket; `done` holds those before, last one first. -/
def readItems : Nat → List Document → List Char → Option (Document × List Char)
  | 0, _, _ => none
  | steps + 1, done, s =>
    match readValue steps (skipGap s) with
    | none => none
    | some (item, s) =>
      match skipGap s with
      | ',' :: s => readItems steps (item :: done) s
      | ']' :: s => some (.array (item :: done).reverse, s)
      | _ => none

/-- The members of an object up to its brace; `done` holds those before, last one first. -/
def readMembers : Nat → List (Option String × Document) → List Char → Option (Document × List Char)
  | 0, _, _ => none
  | steps + 1, done, s =>
    match skipGap s with
    | '"' :: s =>
      match readString s with
      | none => none
      | some (key, s) =>
        match skipGap s with
        | ':' :: s =>
          match readValue steps (skipGap s) with
          | none => none
          | some (value, s) =>
            match skipGap s with
            | ',' :: s => readMembers steps ((key, value) :: done) s
            | '\x7d' :: s => some (.object ((key, value) :: done).reverse, s)
            | _ => none
        | _ => none
    | _ => none

end

/-- The document at the start of a text, after a gap, with what follows it. -/
def read (s : List Char) : Option (Document × List Char) := readValue (s.length + 1) (skipGap s)

/-- The document that a whole text spells; only a gap may surround it. -/
def parse (s : List Char) : Option Document :=
  match read s with
  | some (d, rest) => if (skipGap rest).isEmpty then some d else none
  | none => none

end GuidedTour.Document

/-- The value that a whole text spells. -/
def GuidedTour.Json.parse (s : List Char) : Option GuidedTour.Json :=
  (GuidedTour.Document.parse s).bind GuidedTour.Document.value?
