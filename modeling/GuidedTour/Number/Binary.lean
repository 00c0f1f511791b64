namespace GuidedTour

/-!
# Binary floating-point numbers, exactly

A number is kept as sign, mantissa and power of two, so that every operation is arithmetic on
integers followed by one rounding.

* `BinaryFormat`, `BinaryFormat.double`, `BinaryFormat.single` — precision and exponent range;
* `BinaryFormat.round` — the nearest number of a format to a quotient, a tie going to the even
  mantissa, and infinity beyond the range;
* `Binary.times`, `Binary.quotient` — product and quotient in a format;
* `Binary.nearestInt64` — the nearest integer, a half going away from zero, held inside the
  64-bit range.
-/

/-- A number in binary notation: `± mantissa · 2 ^ exponent`, an infinity, or no number. -/
inductive Binary where
  | finite (negative : Bool) (mantissa : Nat) (exponent : Int)
  | infinite (negative : Bool)
  | nan
  deriving DecidableEq, Repr, Inhabited

/-- How many bits a mantissa has, and the least and greatest power of two of its last bit. -/
structure BinaryFormat where
  precision : Nat
  least : Int
  greatest : Int

namespace BinaryFormat

/-- Numbers of 64 bits. -/
def double : BinaryFormat := ⟨53, -1074, 971⟩

/-- Numbers of 32 bits. -/
def single : BinaryFormat := ⟨24, -149, 104⟩

end BinaryFormat

/-- `2 ^ e` as a quotient. -/
def powerOfTwo (e : Int) : Nat × Nat :=
  if 0 ≤ e then (Nat.pow 2 e.toNat, 1) else (1, Nat.pow 2 (-e).toNat)

/-- The integer nearest to a quotient; a half goes to the even neighbour. -/
def roundHalfEven (num den : Nat) : Nat :=
  let q := num / den
  let r := num % den
  if 2 * r < den then q
  else if den < 2 * r then q + 1
  else if q % 2 == 0 then q else q + 1

namespace BinaryFormat

/-- The power of two of the last mantissa bit for a quotient that is not zero. -/
def exponentFor (f : BinaryFormat) (num den : Nat) : Int :=
  let e : Int := (num.log2 : Int) - den.log2 - f.precision
  let (up, down) := powerOfTwo e
  let e := if Nat.pow 2 f.precision ≤ num * down / (den * up) then e + 1 else e
  max e f.least

/-- The number of the format nearest to `± num / den`. -/
def round (f : BinaryFormat) (negative : Bool) (num den : Nat) : Binary :=
  if num == 0 then .finite negative 0 f.least
  else
    let e := f.exponentFor num den
    let (up, down) := powerOfTwo e
    let m := roundHalfEven (num * down) (den * up)
    let (m, e) :=
      if m == Nat.pow 2 f.precision then (Nat.pow 2 (f.precision - 1), e + 1) else (m, e)
    if f.greatest < e then .infinite negative else .finite negative m e

end BinaryFormat

namespace Binary

/-- Product of two finite numbers, rounded; anything else has none. -/
def times (f : BinaryFormat) : Binary → Binary → Binary
  | finite n m e, finite n' m' e' =>
    let (up, down) := powerOfTwo (e + e')
    f.round (n != n') (m * m' * up) down
  | _, _ => nan

/-- Quotient of two finite numbers, rounded; anything else, and division by zero, has none. -/
def quotient (f : BinaryFormat) : Binary → Binary → Binary
  | finite n m e, finite n' m' e' =>
    if m' == 0 then nan
    else
      let (up, down) := powerOfTwo (e - e')
      f.round (n != n') (m * up) (m' * down)
  | _, _ => nan

/-- The same number with the other sign. -/
def negate : Binary → Binary
  | finite n m e => finite (!n) m e
  | infinite n => infinite (!n)
  | nan => nan

/-- The number in another format. -/
def toFormat (f : BinaryFormat) : Binary → Binary
  | finite n m e =>
    let (up, down) := powerOfTwo e
    f.round n (m * up) down
  | x => x

/-- An integer in a format. -/
def ofInt (f : BinaryFormat) (z : Int) : Binary := f.round (z < 0) z.natAbs 1

/-- Whether the number is zero, of either sign. -/
def isZero : Binary → Bool
  | finite _ m _ => m == 0
  | _ => false

/-- The size of the nearest integer, a half going up. -/
def nearestNat (mantissa : Nat) (exponent : Int) : Nat :=
  let (up, down) := powerOfTwo exponent
  (2 * mantissa * up + down) / (2 * down)

end Binary

/-- The least and the greatest integer of 64 bits with sign. -/
def int64Min : Int := Int64.minValue.toInt

@[inherit_doc int64Min]
def int64Max : Int := Int64.maxValue.toInt

/-- The integer held inside the signed 64-bit range. -/
def clampInt64 (z : Int) : Int := max int64Min (min z int64Max)

/-- The nearest integer, a half going away from zero, held inside the signed 64-bit range; what is
no number counts as zero. -/
def Binary.nearestInt64 : Binary → Int
  | .finite negative m e =>
    let n : Int := Binary.nearestNat m e
    clampInt64 (if negative then -n else n)
  | .infinite negative => if negative then int64Min else int64Max
  | .nan => 0

end GuidedTour
