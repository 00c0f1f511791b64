import GuidedTour.Json.Basic

namespace GuidedTour

/-!
# JSON scalars

* `NumberText` — a number literal taken apart;
* `NumberText.value` — its value. Digits are gathered into a significand of 64 bits; what does not
  fit is dropped, and the significand is scaled by the power of ten that is left;
* `readNumber`, `readString` — a literal at the start of a text, with what follows it. Both accept
  every literal of the grammar; whether it has a value is said in the answer.
-/

/-- A number literal: sign, digits before and after the point, and the exponent if one is
written. -/
structure NumberText where
  negative : Bool
  whole : List Char
  fraction : Option (List Char)
  exponent : Option (Bool × List Char)

/-- The greatest integer of 64 bits without sign. -/
def wordMax : Nat := UInt64.size - 1

/-- Adds digits to a significand as long as it fits in a word; the rest is handed back. -/
def gather (significand : Nat) : List Char → Nat × List Char
  | [] => (significand, [])
  | c :: s =>
    let next := 10 * significand + Numeral.digitValue c
    if wordMax < next then (significand, c :: s) else gather next s

namespace NumberText

/-- The significand and the power of ten before the written exponent is looked at. -/
def significand (t : NumberText) : Nat × Int :=
  let (s, dropped) := gather 0 t.whole
  let fraction := t.fraction.getD []
  let (s', left) := gather s fraction
  (s', (dropped.length : Int) - ((fraction.length : Int) - left.length))

/-- A written exponent with more digits than a 32-bit integer holds is taken as out of reach. -/
def exponentLimit : Nat := Int32.maxValue.toInt.toNat

/-- The size of the number as a double; `none` beyond the doubles. -/
def magnitude (t : NumberText) : Option Binary :=
  let (s, e) := t.significand
  match t.exponent with
  | none => Numeral.scaled s e
  | some (down, ds) =>
    let written := Numeral.digits ds
    if exponentLimit < written then
      if s != 0 && !down then none else some (.finite false 0 BinaryFormat.double.least)
    else Numeral.scaled s (if down then e - written else e + written)

/-- The value of the literal. Without point and exponent it is an integer if that fits, with minus
zero as a double. -/
def value (t : NumberText) : Option Number :=
  let n := Numeral.digits t.whole
  let plain := t.fraction.isNone && t.exponent.isNone
  if plain && !t.negative && n ≤ wordMax then some (.int n)
  else if plain && t.negative && 0 < n && n ≤ int64Min.natAbs then some (.int (-(n : Int)))
  else t.magnitude.map fun x => .real (if t.negative then x.negate else x)

end NumberText

/-- The fraction of a literal, if there is one: a point and at least one digit. -/
def readFraction : List Char → Option (Option (List Char) × List Char)
  | '.' :: s =>
    let ds := s.takeWhile Char.isDigit
    if ds.isEmpty then none else some (some ds, s.dropWhile Char.isDigit)
  | s => some (none, s)

/-- The sign of an exponent; whether it points down, and what follows. -/
def readExponentSign : List Char → Bool × List Char
  | '+' :: s => (false, s)
  | '-' :: s => (true, s)
  | s => (false, s)

/-- The exponent of a literal, if there is one: the letter, a sign or none, at least one digit. -/
def readExponentOf : List Char → Option (Option (Bool × List Char) × List Char)
  | [] => some (none, [])
  | c :: s =>
    if c == 'e' || c == 'E' then
      let (down, s) := readExponentSign s
      let ds := s.takeWhile Char.isDigit
      if ds.isEmpty then none else some (some (down, ds), s.dropWhile Char.isDigit)
    else some (none, c :: s)

/-- A number literal without its sign. No digit may follow a leading zero. -/
def readUnsignedNumber (negative : Bool) (s : List Char) : Option (NumberText × List Char) := do
  let whole := s.takeWhile Char.isDigit
  if whole.isEmpty || (whole.head? == some '0' && 1 < whole.length) then none
  let (fraction, s) ← readFraction (s.dropWhile Char.isDigit)
  let (exponent, s) ← readExponentOf s
  pure (⟨negative, whole, fraction, exponent⟩, s)

/-- A number literal at the start of a text. -/
def readNumber : List Char → Option (NumberText × List Char)
  | '-' :: s => readUnsignedNumber true s
  | s => readUnsignedNumber false s

/-- A piece of a string literal: a character, or a code unit written as four hexadecimal digits. -/
inductive StringPiece where
  | char (c : Char)
  | unit (n : Nat)

/-- The value of a hexadecimal digit. -/
def hexValue? (c : Char) : Option Nat :=
  if c.isDigit then some (c.toNat - 48)
  else if 'a' ≤ c && c ≤ 'f' then some (c.toNat - 87)
  else if 'A' ≤ c && c ≤ 'F' then some (c.toNat - 55)
  else none

/-- The value of four hexadecimal digits. -/
def hexUnit? (a b c d : Char) : Option Nat := do
  pure (4096 * (← hexValue? a) + 256 * (← hexValue? b) + 16 * (← hexValue? c) + (← hexValue? d))

/-- The character behind a one-letter escape. -/
def escapedChar? : Char → Option Char
  | '"' => some '"'
  | '\\' => some '\\'
  | '/' => some '/'
  | 'b' => some '\x08'
  | 'f' => some '\x0c'
  | 'n' => some '\n'
  | 'r' => some '\r'
  | 't' => some '\t'
  | _ => none

/-- The pieces of a string literal up to its closing quote, and what follows it. `done` holds the
pieces read so far, last one first. -/
def readPieces (done : List StringPiece) : List Char → Option (List StringPiece × List Char)
  | [] => none
  | '"' :: s => some (done.reverse, s)
  | '\\' :: 'u' :: a :: b :: c :: d :: s =>
    match hexUnit? a b c d with
    | some n => readPieces (.unit n :: done) s
    | none => none
  | '\\' :: c :: s =>
    match escapedChar? c with
    | some c => readPieces (.char c :: done) s
    | none => none
  | '\\' :: [] => none
  | c :: s => if c.toNat < 32 then none else readPieces (.char c :: done) s

/-- Whether a code unit is the first or the second half of a pair. -/
def isHighHalf (n : Nat) : Bool := 0xD800 ≤ n && n < 0xDC00

@[inherit_doc isHighHalf]
def isLowHalf (n : Nat) : Bool := 0xDC00 ≤ n && n < 0xE000

/-- The characters of the pieces, where two halves in a row make one. `done` holds the characters
so far, last one first. -/
def joinPieces (done : List Char) : List StringPiece → Option (List Char)
  | [] => some done.reverse
  | .char c :: rest => joinPieces (c :: done) rest
  | .unit n :: .unit m :: rest =>
    if isHighHalf n then
      if isLowHalf m then
        joinPieces (Char.ofNat (0x10000 + 1024 * (n - 0xD800) + (m - 0xDC00)) :: done) rest
      else none
    else if isLowHalf n then none
    else joinPieces (Char.ofNat n :: done) (.unit m :: rest)
  | .unit n :: rest =>
    if isHighHalf n || isLowHalf n then none else joinPieces (Char.ofNat n :: done) rest

/-- A string literal after its opening quote: its text if it has one, and what follows. -/
def readString (s : List Char) : Option (Option String × List Char) :=
  (readPieces [] s).map fun (pieces, rest) => ((joinPieces [] pieces).map String.ofList, rest)

end GuidedTour
