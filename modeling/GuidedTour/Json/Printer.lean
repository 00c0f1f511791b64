import GuidedTour.Json.Basic

namespace GuidedTour.Json

/-!
# Writing JSON

* `compact` — a value on one line, without gaps;
* `pretty` — a value over several lines, two spaces deeper inside each array and object;
* `escape` — inside a string the quote, the backslash and the characters below U+0020 are escaped,
  and nothing else.
-/

/-- A hexadecimal digit in lower case. -/
def hexDigit (n : Nat) : Char := Nat.digitChar n

/-- A character as it stands inside a string. -/
def escapeChar (c : Char) : List Char :=
  if c == '"' then ['\\', '"']
  else if c == '\\' then ['\\', '\\']
  else if c == '\x08' then ['\\', 'b']
  else if c == '\x0c' then ['\\', 'f']
  else if c == '\n' then ['\\', 'n']
  else if c == '\r' then ['\\', 'r']
  else if c == '\t' then ['\\', 't']
  else if c.toNat < 32 then
    ['\\', 'u', '0', '0', hexDigit (c.toNat / 16), hexDigit (c.toNat % 16)]
  else [c]

/-- The characters between the quotes of a string. -/
def escape (s : List Char) : List Char := s.flatMap escapeChar

/-- A string with its quotes. -/
def quoted (s : String) : List Char := '"' :: escape s.toList ++ ['"']

/-- The decimal digits of a double that is not zero, and where its point stands: a number from
`1e-5` up to sixteen digits is written without exponent. -/
def layout (digits : List Char) (exponent : Int) : List Char :=
  let point : Int := digits.length + exponent
  if 0 ≤ exponent && point ≤ 16 then digits ++ List.replicate exponent.toNat '0' ++ ['.', '0']
  else if 0 < point && point ≤ 16 then
    digits.take point.toNat ++ '.' :: digits.drop point.toNat
  else if -5 < point && point ≤ 0 then
    '0' :: '.' :: List.replicate (-point).toNat '0' ++ digits
  else
    let tail := digits.drop 1
    let tail := if tail.isEmpty then tail else '.' :: tail
    digits.take 1 ++ tail ++ 'e' :: Numeral.ofInt (point - 1)

/-- A double by its shortest decimal; what is no finite number is written as null. -/
def printBinary : Binary → List Char
  | .finite negative m e =>
    let body := if m == 0 then ['0', '.', '0'] else
      let (d, k) := BinaryFormat.double.shortest m e
      layout (Numeral.ofNat d) k
    if negative then '-' :: body else body
  | _ => "null".toList

/-- A number. -/
def printNumber : Number → List Char
  | .int z => Numeral.ofInt z
  | .real x => printBinary x

/-- Pieces with a comma between each two. -/
def commas : List (List Char) → List Char
  | [] => []
  | [piece] => piece
  | piece :: next :: rest => piece ++ ',' :: commas (next :: rest)

mutual

/-- A value on one line. -/
def compact : Json → List Char
  | .null => "null".toList
  | .bool true => "true".toList
  | .bool false => "false".toList
  | .number n => printNumber n
  | .string s => quoted s
  | .array items => '[' :: commas (compactItems items) ++ [']']
  | .object members => '\x7b' :: commas (compactMembers members) ++ ['\x7d']

@[inherit_doc compact]
def compactItems : List Json → List (List Char)
  | [] => []
  | item :: rest => compact item :: compactItems rest

@[inherit_doc compact]
def compactMembers : List (String × Json) → List (List Char)
  | [] => []
  | (key, value) :: rest => (quoted key ++ ':' :: compact value) :: compactMembers rest

end

/-- A line end and the indentation of a level. -/
def newline (level : Nat) : List Char := '\n' :: List.replicate (2 * level) ' '

/-- Pieces between brackets, each on its own line one level deeper. -/
def block (opening closing : Char) (level : Nat) (pieces : List (List Char)) : List Char :=
  if pieces.isEmpty then [opening, closing]
  else
    opening :: commas (pieces.map (newline (level + 1) ++ ·)) ++ newline level ++ [closing]

mutual

/-- A value over several lines that stands at a level of indentation. -/
def prettyAt (level : Nat) : Json → List Char
  | .array items => block '[' ']' level (prettyItems (level + 1) items)
  | .object members => block '\x7b' '\x7d' level (prettyMembers (level + 1) members)
  | .null => "null".toList
  | .bool true => "true".toList
  | .bool false => "false".toList
  | .number n => printNumber n
  | .string s => quoted s

@[inherit_doc prettyAt]
def prettyItems (level : Nat) : List Json → List (List Char)
  | [] => []
  | item :: rest => prettyAt level item :: prettyItems level rest

@[inherit_doc prettyAt]
def prettyMembers (level : Nat) : List (String × Json) → List (List Char)
  | [] => []
  | (key, value) :: rest =>
    (quoted key ++ ':' :: ' ' :: prettyAt level value) :: prettyMembers level rest

end

/-- A value over several lines. -/
def pretty (value : Json) : List Char := prettyAt 0 value

end GuidedTour.Json
