import GuidedTour.Number.Binary

namespace GuidedTour.Numeral

/-!
# Numbers written with decimal digits

* `digits`, `ofNat` — an integer from its digits and back;
* `readInt` — an integer with an optional sign inside given bounds;
* `exact` — the number of a format nearest to `digits · 10 ^ exponent`;
* `readBinary` — a number with point and exponent, `inf`, `infinity` or `nan`;
* `scaled` — the two-step reading of `digits · 10 ^ exponent`: the digits are rounded first, then
  multiplied or divided by a rounded power of ten. It can miss the nearest number by a last bit.
-/

/-- The value of a decimal digit. -/
def digitValue (c : Char) : Nat := c.toNat - 48

/-- The value of a row of decimal digits that follows `n`. -/
def digitsFrom (n : Nat) : List Char → Nat
  | [] => n
  | c :: s => digitsFrom (10 * n + digitValue c) s

/-- The value of a row of decimal digits. -/
def digits (s : List Char) : Nat := digitsFrom 0 s

/-- The decimal digits of a number. -/
def ofNat (n : Nat) : List Char := Nat.toDigits 10 n

/-- An integer in decimal digits, with a sign only when it is negative. -/
def ofInt (z : Int) : List Char :=
  if z < 0 then '-' :: ofNat z.natAbs else ofNat z.natAbs

/-- The value of a row of decimal digits that is not empty. -/
def readNat (s : List Char) : Option Nat :=
  if s.isEmpty || !s.all Char.isDigit then none else some (digits s)

/-- An integer between two bounds: digits after an optional sign. Where no number below zero is in
range a minus sign is refused, also before a zero. -/
def readInt (low high : Int) (s : List Char) : Option Int := do
  let z ← match s with
    | '+' :: t => (readNat t).map Int.ofNat
    | '-' :: t => if low < 0 then (readNat t).map fun n => -(n : Int) else none
    | t => (readNat t).map Int.ofNat
  if low ≤ z && z ≤ high then some z else none

/-- The number of a format nearest to `± significand · 10 ^ exponent`. Beyond `10 ^ 400` and below
`10 ^ -400` the answer is known without the power. -/
def exact (f : BinaryFormat) (negative : Bool) (significand : Nat) (exponent : Int) : Binary :=
  let magnitude : Int := (ofNat significand).length + exponent
  if significand == 0 || magnitude < -400 then .finite negative 0 f.least
  else if 400 < magnitude then .infinite negative
  else if 0 ≤ exponent then f.round negative (significand * Nat.pow 10 exponent.toNat) 1
  else f.round negative significand (Nat.pow 10 (-exponent).toNat)

/-- The exponent after an `e`: digits after an optional sign. -/
def readExponent : List Char → Option Int
  | '+' :: s => (readNat s).map Int.ofNat
  | '-' :: s => (readNat s).map fun n => -(n : Int)
  | s => (readNat s).map Int.ofNat

/-- The exponent part, which may be missing. -/
def readExponentPart : List Char → Option Int
  | [] => some 0
  | c :: s => if c == 'e' || c == 'E' then readExponent s else none

/-- The fraction after the integer digits: its digits and what follows them. -/
def fractionPart : List Char → List Char × List Char
  | '.' :: s => (s.takeWhile Char.isDigit, s.dropWhile Char.isDigit)
  | s => ([], s)

/-- A number without its sign. A point may stand before or after the digits, but some digit has to
be there. -/
def readUnsigned (negative : Bool) (s : List Char) : Option Binary :=
  let name := s.map Char.toLower
  if name == "inf".toList || name == "infinity".toList then some (.infinite negative)
  else if name == "nan".toList then some .nan
  else
    let whole := s.takeWhile Char.isDigit
    let (fraction, rest) := fractionPart (s.dropWhile Char.isDigit)
    if whole.isEmpty && fraction.isEmpty then none
    else (readExponentPart rest).map fun e =>
      exact .double negative (digits (whole ++ fraction)) (e - fraction.length)

/-- The double nearest to a number with an optional sign. -/
def readBinary : List Char → Option Binary
  | '+' :: s => readUnsigned false s
  | '-' :: s => readUnsigned true s
  | s => readUnsigned false s

/-- `10 ^ k` as a double. -/
def powerOfTen (k : Nat) : Binary := BinaryFormat.double.round false (Nat.pow 10 k) 1

/-- Divides by powers of ten of at most `10 ^ 308` until the exponent is used up or nothing is
left. -/
def divideDown (x : Binary) (k : Nat) : Binary :=
  if k ≤ 308 then x.quotient .double (powerOfTen k)
  else if x.isZero then x
  else divideDown (x.quotient .double (powerOfTen 308)) (k - 308)
termination_by k

/-- The rounded significand, multiplied or divided by rounded powers of ten; `none` where the
product is infinite. -/
def scaled (significand : Nat) (exponent : Int) : Option Binary :=
  let x := BinaryFormat.double.round false significand 1
  if exponent < 0 then some (divideDown x (-exponent).toNat)
  else if 308 < exponent then if x.isZero then some x else none
  else match x.times .double (powerOfTen exponent.toNat) with
    | .finite n m e => some (.finite n m e)
    | _ => none

end GuidedTour.Numeral
