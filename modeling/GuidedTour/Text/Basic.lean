namespace GuidedTour.Text

/-!
# Characters in a row

Text is handled as a list of characters. This module holds what needs no table:

* `isBlank`, `trim`, `words` — blanks are the characters with the property White_Space;
* `lines` — the lines of a text; a line feed ends a line, one carriage return before it belongs
  to the line end;
* `splitAll`, `contains`, `joinWith` — pieces between separators, occurrence, joining.

All of them loop without growing the stack, so that one very long line is no trouble.
-/

/-- The characters with the property White_Space. -/
def isBlank (c : Char) : Bool :=
  let n := c.toNat
  (9 ≤ n && n ≤ 13) || n == 32 || n == 133 || n == 160 || n == 5760 ||
    (8192 ≤ n && n ≤ 8202) || n == 8232 || n == 8233 || n == 8239 || n == 8287 || n == 12288

/-- The text without the blanks at its start. -/
def trimStart (s : List Char) : List Char := s.dropWhile isBlank

/-- The text without the blanks at its end. -/
def trimEnd (s : List Char) : List Char := (s.reverse.dropWhile isBlank).reverse

/-- The text without the blanks at both ends. -/
def trim (s : List Char) : List Char := trimEnd (trimStart s)

/-- Whether the text holds nothing but blanks. -/
def allBlank (s : List Char) : Bool := s.all isBlank

/-- Splits at blanks; `word` holds the word being read, last character first. -/
def wordsFrom (word : List Char) : List Char → List (List Char)
  | [] => if word.isEmpty then [] else [word.reverse]
  | c :: s =>
    if isBlank c then
      if word.isEmpty then wordsFrom [] s else word.reverse :: wordsFrom [] s
    else wordsFrom (c :: word) s

/-- The longest runs of characters that are not blank. -/
def words (s : List Char) : List (List Char) := wordsFrom [] s

/-- A line as it was read, last character first, without the carriage return of its line end. -/
def closeLine : List Char → List Char
  | '\r' :: line => line.reverse
  | line => line.reverse

/-- Splits at line feeds; `line` holds the line being read, last character first. -/
def linesFrom (line : List Char) : List Char → List (List Char)
  | [] => if line.isEmpty then [] else [line.reverse]
  | c :: s => if c == '\n' then closeLine line :: linesFrom [] s else linesFrom (c :: line) s

/-- The lines of a text. A last line without a line end counts unless it is empty. -/
def lines (s : List Char) : List (List Char) := linesFrom [] s

/-- Splits at a separator; `piece` holds the piece being read, last character first. -/
def splitFrom (separator : Char) (piece : List Char) : List Char → List (List Char)
  | [] => [piece.reverse]
  | c :: s =>
    if c == separator then piece.reverse :: splitFrom separator [] s
    else splitFrom separator (c :: piece) s

/-- The pieces between the separators; always one more than there are separators. -/
def splitAll (separator : Char) (s : List Char) : List (List Char) := splitFrom separator [] s

/-- Whether the needle occurs in the text. -/
def contains (needle : List Char) : List Char → Bool
  | [] => needle.isEmpty
  | c :: s => needle.isPrefixOf (c :: s) || contains needle s

/-- The pieces with a separator between each two. -/
def joinWith (separator : List Char) : List (List Char) → List Char
  | [] => []
  | [piece] => piece
  | piece :: next :: rest => piece ++ separator ++ joinWith separator (next :: rest)

/-- Every backslash becomes a slash. -/
def slashed (s : List Char) : List Char := s.map fun c => if c == '\\' then '/' else c

/-- The text without the `./` it begins with, however often that is repeated. -/
def dropDotSlash : List Char → List Char
  | '.' :: '/' :: s => dropDotSlash s
  | s => s

/-- The text without what comes after its first `limit` characters. -/
def truncate (limit : Nat) (s : List Char) : List Char := s.take limit

/-- Equality up to the case of ASCII letters. -/
def sameIgnoringCase (s t : List Char) : Bool := s.map Char.toLower == t.map Char.toLower

end GuidedTour.Text

namespace String

/-- A function on characters, read as one on strings. -/
def mapText (f : List Char → List Char) (s : String) : String := String.ofList (f s.toList)

/-- The string without the blanks at both ends. -/
def trimBlanks (s : String) : String := s.mapText GuidedTour.Text.trim

/-- Whether the string holds nothing but blanks. -/
def isAllBlank (s : String) : Bool := GuidedTour.Text.allBlank s.toList

/-- Whether the needle occurs in the string. -/
def hasText (s needle : String) : Bool := GuidedTour.Text.contains needle.toList s.toList

end String
