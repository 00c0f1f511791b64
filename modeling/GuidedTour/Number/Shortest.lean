import GuidedTour.Number.Numeral

namespace GuidedTour

/-!
# The shortest decimal that reads back

`BinaryFormat.shortest` gives, for a positive number of the format, the fewest digits `d` and the
power `k` such that `d · 10 ^ k` lies among the reals that round to the number; of two such decimals
with equally many digits it gives the nearer one, and of two that are equally near the even one.
-/

namespace BinaryFormat

/-- Twice the bounds of the reals that round to `mantissa · 2 ^ exponent`, in units of
`2 ^ (exponent - 2)`. The gap below a power of two is half as wide. -/
def neighbourhood (f : BinaryFormat) (mantissa : Nat) (exponent : Int) : Nat × Nat :=
  let low :=
    if mantissa == Nat.pow 2 (f.precision - 1) && f.least < exponent then 4 * mantissa - 1
    else 4 * mantissa - 2
  (low, 4 * mantissa + 2)

end BinaryFormat

/-- The least `j` up to a limit with `den ≤ num · 10 ^ j`. -/
def stepsToOne (num den : Nat) : Nat → Nat
  | 0 => 0
  | limit + 1 => if den ≤ num then 0 else stepsToOne (10 * num) den limit + 1

/-- The `k` with `10 ^ k ≤ num / den < 10 ^ (k + 1)`. -/
def decimalExponent (num den : Nat) : Int :=
  if den ≤ num then ((Numeral.ofNat (num / den)).length : Int) - 1
  else -(stepsToOne num den 400 : Int)

/-- A quotient in units of `10 ^ k`. -/
def inDecimalUnits (num den : Nat) (k : Int) : Nat × Nat :=
  if 0 ≤ k then (num, den * Nat.pow 10 k.toNat) else (num * Nat.pow 10 (-k).toNat, den)

/-- A multiple of `10 ^ k` among the reals between the bounds, the nearer to `value` of the two
around it, or the even one half-way between them. The three quotients have the denominator `den`;
the bounds count as inside when `closed`. -/
def gridPoint (closed : Bool) (low value high den : Nat) (k : Int) : Option Nat :=
  let (lowN, d) := inDecimalUnits low den k
  let (valueN, _) := inDecimalUnits value den k
  let (highN, _) := inDecimalUnits high den k
  let inside (c : Nat) : Bool :=
    if closed then lowN ≤ c * d && c * d ≤ highN else lowN < c * d && c * d < highN
  let below := valueN / d
  let fits := [below, below + 1].filter inside
  match fits with
  | [a, b] =>
    let toLower := valueN - a * d
    let toUpper := b * d - valueN
    if toLower < toUpper || (toLower == toUpper && a % 2 == 0) then some a else some b
  | [a] => some a
  | _ => none

/-- Tries `count` digits, then one more, as often as `more` says. -/
def firstGridPoint (closed : Bool) (low value high den : Nat) (top : Int) (count : Nat) :
    Nat → Nat × Int
  | 0 => (value / den, 0)
  | more + 1 =>
    let k := top - (count : Int) + 1
    match gridPoint closed low value high den k with
    | some d => (d, k)
    | none => firstGridPoint closed low value high den top (count + 1) more

/-- The digits and the power of ten of the shortest decimal that reads back as
`mantissa · 2 ^ exponent`. -/
def BinaryFormat.shortest (f : BinaryFormat) (mantissa : Nat) (exponent : Int) : Nat × Int :=
  let (low, high) := f.neighbourhood mantissa exponent
  let (up, down) := powerOfTwo (exponent - 2)
  let (low, value, high) := (low * up, 4 * mantissa * up, high * up)
  firstGridPoint (mantissa % 2 == 0) low value high down (decimalExponent value down) 1 17

/-- The double nearest to the shortest decimal of a single: a number that is written the same way
and has the width of every other number. -/
def Binary.singleAsWritten : Binary → Binary
  | .finite negative m e =>
    if m == 0 then .finite negative 0 BinaryFormat.double.least
    else
      let (d, k) := BinaryFormat.single.shortest m e
      Numeral.exact .double negative d k
  | x => x

end GuidedTour
