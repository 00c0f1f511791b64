import GuidedTour.Number.Numeral
import Mathlib.Algebra.Order.Field.Basic
import Mathlib.Data.Rat.Cast.Order
import Mathlib.Tactic.Ring

namespace GuidedTour

/-!
# Rounding does not cross powers of two

A number that is at least a power of two stays so, however often it is rounded, and so does one that
is at most a power of two. That is all there is to know about large integers that are read as
floating-point numbers and then held inside 64 bits.

* `Binary.Reaches`, `Binary.StaysWithin` — a number whose size is at least, or at most, a power of
  two;
* `BinaryFormat.round_reaches`, `BinaryFormat.round_staysWithin` — a rounded quotient reaches what
  the quotient reaches, and is finite and as small as the quotient if that is in range;
* `Binary.times_reaches`, `Numeral.scaled_reaches`, `Numeral.exact_reaches` — so do products and the
  numbers that decimals are read as;
* `Numeral.scaled_isSome` — a decimal in range has a number;
* `Binary.nearestInt64_of_reaches` — what reaches `2 ^ 63` is held at the end of the 64-bit range.
-/

/-! ### Powers of two as quotients -/

theorem powerOfTwo_of_nonneg {e : Int} (h : 0 ≤ e) : powerOfTwo e = (2 ^ e.toNat, 1) := by
  rw [powerOfTwo, if_pos h]
  rfl

theorem powerOfTwo_of_neg {e : Int} (h : e < 0) : powerOfTwo e = (1, 2 ^ (-e).toNat) := by
  rw [powerOfTwo, if_neg (by omega)]
  rfl

/-- Neither part of the quotient is zero. -/
theorem powerOfTwo_pos (e : Int) : 0 < (powerOfTwo e).1 ∧ 0 < (powerOfTwo e).2 := by
  rcases Int.lt_or_le e 0 with h | h
  · rw [powerOfTwo_of_neg h]
    exact ⟨Nat.one_pos, Nat.pow_pos Nat.two_pos⟩
  · rw [powerOfTwo_of_nonneg h]
    exact ⟨Nat.pow_pos Nat.two_pos, Nat.one_pos⟩

/-- The quotient is the power of two. -/
theorem powerOfTwo_cast (e : Int) :
    ((powerOfTwo e).1 : ℚ) = 2 ^ e * (powerOfTwo e).2 := by
  rcases Int.lt_or_le e 0 with h | h
  · have hexp : (2 : ℚ) ^ e * 2 ^ (-e).toNat = 1 := by
      rw [← zpow_natCast, ← zpow_add₀ two_ne_zero, Int.toNat_of_nonneg (by omega)]
      simp
    rw [powerOfTwo_of_neg h]
    simp [hexp]
  · have hexp : (2 : ℚ) ^ e = 2 ^ e.toNat := by
      rw [← zpow_natCast, Int.toNat_of_nonneg h]
    rw [powerOfTwo_of_nonneg h]
    simp [hexp]

/-- The quotient of a sum of exponents is the product of the quotients. -/
theorem powerOfTwo_add (e e' : Int) :
    (powerOfTwo e).1 * (powerOfTwo e').1 * (powerOfTwo (e + e')).2 =
      (powerOfTwo e).2 * (powerOfTwo e').2 * (powerOfTwo (e + e')).1 := by
  have hcast : (((powerOfTwo e).1 * (powerOfTwo e').1 * (powerOfTwo (e + e')).2 : ℕ) : ℚ) =
      ((powerOfTwo e).2 * (powerOfTwo e').2 * (powerOfTwo (e + e')).1 : ℕ) := by
    push_cast
    rw [powerOfTwo_cast e, powerOfTwo_cast e', powerOfTwo_cast (e + e'), zpow_add₀ two_ne_zero]
    ring
  exact_mod_cast hcast

/-- A number with a sign whose size is at least `2 ^ k`; an infinity is. -/
def Binary.Reaches (negative : Bool) (k : Nat) : Binary → Prop
  | .finite n m e => n = negative ∧ 2 ^ k * (powerOfTwo e).2 ≤ m * (powerOfTwo e).1
  | .infinite n => n = negative
  | .nan => False

/-- A finite number whose size is at most `2 ^ k`. -/
def Binary.StaysWithin (k : Nat) : Binary → Prop
  | .finite _ m e => m * (powerOfTwo e).1 ≤ 2 ^ k * (powerOfTwo e).2
  | _ => False

variable {f : BinaryFormat} {negative : Bool} {k num den : Nat}

/-! ### One rounding -/

/-- A rounded quotient is not below the quotient that is cut off. -/
theorem div_le_roundHalfEven (num den : Nat) : num / den ≤ roundHalfEven num den := by
  unfold roundHalfEven
  simp only
  split
  · exact Nat.le_refl _
  · split
    · exact Nat.le_succ _
    · split
      · exact Nat.le_refl _
      · exact Nat.le_succ _

/-- A rounded quotient does not go beyond a whole number that the quotient does not go beyond. -/
theorem roundHalfEven_le {n : Nat} (hden : den ≠ 0) (h : num ≤ n * den) :
    roundHalfEven num den ≤ n := by
  have hfloor : num / den ≤ n := Nat.div_le_of_le_mul (by rwa [Nat.mul_comm])
  have hsplit := Nat.div_add_mod num den
  rcases Nat.lt_or_eq_of_le hfloor with hlt | heq
  · unfold roundHalfEven
    simp only
    split
    · exact hfloor
    · split
      · exact hlt
      · split
        · exact hfloor
        · exact hlt
  · -- Nothing is left over, so nothing is rounded up.
    have hrest : num % den = 0 := by
      rw [heq, Nat.mul_comm] at hsplit
      omega
    rw [roundHalfEven, hrest, if_pos (by omega)]
    exact hfloor

namespace BinaryFormat

/-- A quotient has as many bits as the precision in units of its last bit, unless that is the least
one. -/
theorem mul_pow_exponentFor_le (hprecision : 1 ≤ f.precision) (hleast : f.least ≤ 0)
    (hnum : num ≠ 0) (hden : den ≠ 0) (hexp : 0 < f.exponentFor num den) :
    2 ^ (f.precision - 1) * (den * 2 ^ (f.exponentFor num den).toNat) ≤ num := by
  have hsucc : f.precision - 1 + 1 = f.precision := Nat.sub_add_cancel hprecision
  have hnumLog : 2 ^ num.log2 ≤ num := Nat.log2_self_le hnum
  have hdenLog : den < 2 ^ (den.log2 + 1) := Nat.lt_log2_self
  unfold exponentFor at hexp ⊢
  simp only at hexp ⊢
  generalize he : (num.log2 : Int) - den.log2 - f.precision = e at hexp ⊢
  split at hexp
  · rename_i hcarry
    rw [if_pos hcarry]
    -- One more bit fits in before the point than the exponent allows for.
    have hfull : 2 ^ f.precision * (den * (powerOfTwo e).1) ≤ num * (powerOfTwo e).2 :=
      (Nat.le_div_iff_mul_le (Nat.mul_pos (by omega) (powerOfTwo_pos e).1)).mp hcarry
    have hnonneg : 0 ≤ e := by omega
    have hmax : max (e + 1) f.least = e + 1 := by omega
    rw [powerOfTwo_of_nonneg hnonneg] at hfull
    rw [hmax]
    calc 2 ^ (f.precision - 1) * (den * 2 ^ (e + 1).toNat)
        = 2 ^ (f.precision - 1 + 1) * (den * 2 ^ e.toNat) := by
          rw [show (e + 1).toNat = e.toNat + 1 by omega]
          ring
      _ = 2 ^ f.precision * (den * 2 ^ e.toNat) := by rw [hsucc]
      _ ≤ num := by simpa using hfull
  · rename_i hcarry
    rw [if_neg hcarry]
    have hmax : max e f.least = e := by omega
    rw [hmax]
    calc 2 ^ (f.precision - 1) * (den * 2 ^ e.toNat)
        ≤ 2 ^ (f.precision - 1) * (2 ^ (den.log2 + 1) * 2 ^ e.toNat) :=
          Nat.mul_le_mul_left _ (Nat.mul_le_mul_right _ hdenLog.le)
      _ = 2 ^ (f.precision - 1 + 1 + den.log2 + e.toNat) := by ring
      _ ≤ 2 ^ num.log2 := Nat.pow_le_pow_right Nat.two_pos (by omega)
      _ ≤ num := hnumLog

/-- In units of its last bit, a quotient that reaches a power of two is rounded to a mantissa that
does. -/
theorem mantissa_reaches (hprecision : 1 ≤ f.precision) (hleast : f.least ≤ 0) (hden : den ≠ 0)
    (h : 2 ^ k * den ≤ num) :
    let e := f.exponentFor num den
    2 ^ k * (powerOfTwo e).2 ≤
      roundHalfEven (num * (powerOfTwo e).2) (den * (powerOfTwo e).1) * (powerOfTwo e).1 := by
  intro e
  have hnum : num ≠ 0 := by
    have hpos : 0 < 2 ^ k * den := Nat.mul_pos (Nat.pow_pos Nat.two_pos) (by omega)
    omega
  have hfloor := div_le_roundHalfEven (num * (powerOfTwo e).2) (den * (powerOfTwo e).1)
  have hpos : 0 < den * (powerOfTwo e).1 := Nat.mul_pos (by omega) (powerOfTwo_pos e).1
  -- It is enough to find a multiple of the last bit between the power of two and the quotient.
  have hmultiple : ∀ n, n * (den * (powerOfTwo e).1) ≤ num * (powerOfTwo e).2 →
      2 ^ k * (powerOfTwo e).2 ≤ n * (powerOfTwo e).1 →
      2 ^ k * (powerOfTwo e).2 ≤
        roundHalfEven (num * (powerOfTwo e).2) (den * (powerOfTwo e).1) * (powerOfTwo e).1 := by
    intro n hbelow habove
    have hn : n ≤ roundHalfEven (num * (powerOfTwo e).2) (den * (powerOfTwo e).1) :=
      ((Nat.le_div_iff_mul_le hpos).mpr hbelow).trans hfloor
    exact habove.trans (Nat.mul_le_mul_right _ hn)
  rcases Int.lt_or_le e 0 with hneg | hnonneg
  · apply hmultiple (2 ^ k * (powerOfTwo e).2)
    · rw [powerOfTwo_of_neg hneg]
      calc 2 ^ k * 2 ^ (-e).toNat * (den * 1)
          = 2 ^ k * den * 2 ^ (-e).toNat := by ring
        _ ≤ num * 2 ^ (-e).toNat := Nat.mul_le_mul_right _ h
    · rw [powerOfTwo_of_neg hneg, Nat.mul_one]
  · rcases Nat.lt_or_ge k e.toNat with hlt | hge
    · -- The last bit alone is beyond the power of two.
      apply hmultiple 1
      · rw [powerOfTwo_of_nonneg hnonneg, Nat.one_mul, Nat.mul_one]
        have hbits : 1 ≤ 2 ^ (f.precision - 1) := Nat.one_le_two_pow
        calc den * 2 ^ e.toNat
            ≤ 2 ^ (f.precision - 1) * (den * 2 ^ e.toNat) := Nat.le_mul_of_pos_left _ hbits
          _ ≤ num := mul_pow_exponentFor_le hprecision hleast hnum hden (by omega)
      · rw [powerOfTwo_of_nonneg hnonneg, Nat.mul_one, Nat.one_mul]
        exact Nat.pow_le_pow_right Nat.two_pos hlt.le
    · have hsplit : 2 ^ (k - e.toNat) * 2 ^ e.toNat = 2 ^ k := by
        rw [← Nat.pow_add, Nat.sub_add_cancel hge]
      apply hmultiple (2 ^ (k - e.toNat))
      · rw [powerOfTwo_of_nonneg hnonneg, Nat.mul_one]
        calc 2 ^ (k - e.toNat) * (den * 2 ^ e.toNat)
            = 2 ^ (k - e.toNat) * 2 ^ e.toNat * den := by ring
          _ = 2 ^ k * den := by rw [hsplit]
          _ ≤ num := h
      · rw [powerOfTwo_of_nonneg hnonneg, Nat.mul_one, hsplit]

/-- A rounded mantissa with one bit too many is halved, which leaves the value as it is. -/
theorem exists_round_eq {m : Nat} {e : Int} (hprecision : 1 ≤ f.precision) (negative : Bool)
    (hnum : num ≠ 0) (he : f.exponentFor num den = e)
    (hm : roundHalfEven (num * (powerOfTwo e).2) (den * (powerOfTwo e).1) = m) :
    ∃ m' e', f.round negative num den =
        (if f.greatest < e' then .infinite negative else .finite negative m' e') ∧
      m' * (powerOfTwo e').1 * (powerOfTwo e).2 = m * (powerOfTwo e).1 * (powerOfTwo e').2 ∧
      (e' = e ∨ e' = e + 1 ∧ m = 2 ^ f.precision) := by
  unfold round
  rw [if_neg (by simpa using hnum)]
  simp only [he, hm]
  -- A significand that is rounded up to the next power of two is halved, and the exponent raised.
  by_cases hcarry : m = 2 ^ f.precision
  · have hbeq : (m == Nat.pow 2 f.precision) = true := by simpa using hcarry
    refine ⟨2 ^ (f.precision - 1), e + 1, ?_, ?_, .inr ⟨rfl, hcarry⟩⟩
    · simp only [hbeq, if_true]
      rfl
    · have hadd := powerOfTwo_add e 1
      have hone : powerOfTwo 1 = (2, 1) := rfl
      rw [hone, Nat.mul_one] at hadd
      calc 2 ^ (f.precision - 1) * (powerOfTwo (e + 1)).1 * (powerOfTwo e).2
          = 2 ^ (f.precision - 1) * ((powerOfTwo e).2 * (powerOfTwo (e + 1)).1) := by ring
        _ = 2 ^ (f.precision - 1 + 1) * (powerOfTwo e).1 * (powerOfTwo (e + 1)).2 := by
            rw [← hadd]
            ring
        _ = m * (powerOfTwo e).1 * (powerOfTwo (e + 1)).2 := by
            rw [Nat.sub_add_cancel hprecision, hcarry]
  · have hbeq : (m == Nat.pow 2 f.precision) = false := by simpa using hcarry
    refine ⟨m, e, ?_, rfl, .inl rfl⟩
    simp only [hbeq, Bool.false_eq_true, if_false]

/-- A rounded quotient reaches every power of two that the quotient reaches. -/
theorem round_reaches (hprecision : 1 ≤ f.precision) (hleast : f.least ≤ 0) (hden : den ≠ 0)
    (h : 2 ^ k * den ≤ num) : (f.round negative num den).Reaches negative k := by
  have hnum : num ≠ 0 := by
    have hpos : 0 < 2 ^ k * den := Nat.mul_pos (Nat.pow_pos Nat.two_pos) (by omega)
    omega
  have hmantissa := mantissa_reaches hprecision hleast hden h
  simp only at hmantissa
  obtain ⟨m', e', hround, hvalue, -⟩ := exists_round_eq hprecision negative hnum rfl rfl
  generalize roundHalfEven _ _ = m at hmantissa hvalue
  generalize f.exponentFor num den = e at hmantissa hvalue
  rw [hround]
  split
  · rfl
  · -- The value is compared over the denominators of both exponents.
    refine ⟨rfl, Nat.le_of_mul_le_mul_right ?_ (powerOfTwo_pos e).2⟩
    calc 2 ^ k * (powerOfTwo e').2 * (powerOfTwo e).2
        = 2 ^ k * (powerOfTwo e).2 * (powerOfTwo e').2 := by ring
      _ ≤ m * (powerOfTwo e).1 * (powerOfTwo e').2 := Nat.mul_le_mul_right _ hmantissa
      _ = m' * (powerOfTwo e').1 * (powerOfTwo e).2 := hvalue.symm

/-- In units of its last bit, a quotient that is at most a power of two is rounded to a mantissa
that is. -/
theorem mantissa_le (hprecision : 1 ≤ f.precision) (hleast : f.least ≤ 0) (hnum : num ≠ 0)
    (hden : den ≠ 0) (h : num ≤ 2 ^ k * den) :
    let e := f.exponentFor num den
    roundHalfEven (num * (powerOfTwo e).2) (den * (powerOfTwo e).1) * (powerOfTwo e).1 ≤
      2 ^ k * (powerOfTwo e).2 := by
  intro e
  have hdenominator : den * (powerOfTwo e).1 ≠ 0 :=
    Nat.mul_ne_zero hden (powerOfTwo_pos e).1.ne'
  rcases Int.lt_or_le e 0 with hneg | hnonneg
  · rw [powerOfTwo_of_neg hneg] at hdenominator ⊢
    rw [Nat.mul_one]
    apply roundHalfEven_le hdenominator
    calc num * 2 ^ (-e).toNat
        ≤ 2 ^ k * den * 2 ^ (-e).toNat := Nat.mul_le_mul_right _ h
      _ = 2 ^ k * 2 ^ (-e).toNat * (den * 1) := by ring
  · -- The last bit is no greater than the quotient, so it divides the power of two.
    have hlast : e.toNat ≤ k := by
      rcases Int.lt_or_eq_of_le hnonneg with hpos | hzero
      · have hbits : 1 ≤ 2 ^ (f.precision - 1) := Nat.one_le_two_pow
        have hle : 2 ^ e.toNat * den ≤ 2 ^ k * den := by
          calc 2 ^ e.toNat * den
              = den * 2 ^ e.toNat := Nat.mul_comm _ _
            _ ≤ 2 ^ (f.precision - 1) * (den * 2 ^ e.toNat) := Nat.le_mul_of_pos_left _ hbits
            _ ≤ num := mul_pow_exponentFor_le hprecision hleast hnum hden hpos
            _ ≤ 2 ^ k * den := h
        have hpow : 2 ^ e.toNat ≤ 2 ^ k := Nat.le_of_mul_le_mul_right hle (by omega)
        exact (Nat.pow_le_pow_iff_right (by decide)).mp hpow
      · omega
    have hsplit : 2 ^ (k - e.toNat) * 2 ^ e.toNat = 2 ^ k := by
      rw [← Nat.pow_add, Nat.sub_add_cancel hlast]
    rw [powerOfTwo_of_nonneg hnonneg] at hdenominator ⊢
    rw [Nat.mul_one, Nat.mul_one, ← hsplit]
    apply Nat.mul_le_mul_right
    apply roundHalfEven_le hdenominator
    calc num
        ≤ 2 ^ k * den := h
      _ = 2 ^ (k - e.toNat) * (den * 2 ^ e.toNat) := by
          rw [← hsplit]
          ring

/-- A quotient that is at most a power of two in range is rounded to a finite number that is. -/
theorem round_staysWithin (hprecision : 1 ≤ f.precision) (hleast : f.least ≤ 0) (hden : den ≠ 0)
    (hgreatest : 0 ≤ f.greatest) (hrange : k < f.greatest + f.precision) (h : num ≤ 2 ^ k * den) :
    (f.round negative num den).StaysWithin k := by
  by_cases hnum : num = 0
  · obtain rfl := hnum
    show 0 * _ ≤ _
    rw [Nat.zero_mul]
    exact Nat.zero_le _
  have hmantissa := mantissa_le hprecision hleast hnum hden h
  simp only at hmantissa
  obtain ⟨m', e', hround, hvalue, hcarry⟩ := exists_round_eq hprecision negative hnum rfl rfl
  have hbits := mul_pow_exponentFor_le hprecision hleast hnum hden
  generalize roundHalfEven _ _ = m at hmantissa hvalue hcarry
  generalize f.exponentFor num den = e at hmantissa hvalue hcarry hbits
  have hwithin : m' * (powerOfTwo e').1 ≤ 2 ^ k * (powerOfTwo e').2 := by
    refine Nat.le_of_mul_le_mul_right ?_ (powerOfTwo_pos e).2
    calc m' * (powerOfTwo e').1 * (powerOfTwo e).2
        = m * (powerOfTwo e).1 * (powerOfTwo e').2 := hvalue
      _ ≤ 2 ^ k * (powerOfTwo e).2 * (powerOfTwo e').2 := Nat.mul_le_mul_right _ hmantissa
      _ = 2 ^ k * (powerOfTwo e').2 * (powerOfTwo e).2 := by ring
  -- With a greater exponent the quotient would be beyond the power of two.
  have hfinite : e' ≤ f.greatest := by
    rcases hcarry with rfl | ⟨rfl, rfl⟩
    · rcases Int.lt_or_le 0 e' with hpos | hneg
      · have hle : den * 2 ^ (f.precision - 1 + e'.toNat) ≤ den * 2 ^ k := by
          calc den * 2 ^ (f.precision - 1 + e'.toNat)
              = 2 ^ (f.precision - 1) * (den * 2 ^ e'.toNat) := by ring
            _ ≤ num := hbits hpos
            _ ≤ den * 2 ^ k := by rwa [Nat.mul_comm]
        have hpow := Nat.le_of_mul_le_mul_left hle (by omega)
        have hexp := (Nat.pow_le_pow_iff_right (by decide)).mp hpow
        omega
      · omega
    · rcases Int.lt_or_le e 0 with hneg | hnonneg
      · omega
      · rw [powerOfTwo_of_nonneg hnonneg, Nat.mul_one, ← Nat.pow_add] at hmantissa
        have hexp := (Nat.pow_le_pow_iff_right (by decide)).mp hmantissa
        omega
  rw [hround, if_neg (by omega)]
  exact hwithin

/-- A quotient rounded to a double still reaches a power of two that it reaches. -/
theorem double_round_reaches (hden : den ≠ 0) (h : 2 ^ k * den ≤ num) :
    (double.round negative num den).Reaches negative k :=
  round_reaches (by decide) (by decide) hden h

theorem double_round_staysWithin (hden : den ≠ 0) (hrange : k < 1024) (h : num ≤ 2 ^ k * den) :
    (double.round negative num den).StaysWithin k := by
  have hgreatest : double.greatest + double.precision = 1024 := rfl
  exact round_staysWithin (by decide) (by decide) hden (by decide) (by omega) h

end BinaryFormat

/-! ### Products and decimals -/

namespace Binary

variable {x y : Binary} {j : Nat}

/-- The product of two finite numbers reaches the product of what they reach. -/
theorem times_reaches {m m' : Nat} {e e' : Int} (hx : (finite false m e).Reaches false k)
    (hy : (finite false m' e').Reaches false j) :
    ((finite false m e).times .double (finite false m' e')).Reaches false (k + j) := by
  obtain ⟨-, hx⟩ := hx
  obtain ⟨-, hy⟩ := hy
  have hadd := powerOfTwo_add e e'
  have hpos := Nat.mul_pos (powerOfTwo_pos e).2 (powerOfTwo_pos e').2
  refine BinaryFormat.double_round_reaches (powerOfTwo_pos (e + e')).2.ne' ?_
  -- The product is compared over the denominators of all three exponents.
  refine Nat.le_of_mul_le_mul_right ?_ hpos
  calc 2 ^ (k + j) * (powerOfTwo (e + e')).2 * ((powerOfTwo e).2 * (powerOfTwo e').2)
      = 2 ^ k * (powerOfTwo e).2 * (2 ^ j * (powerOfTwo e').2) * (powerOfTwo (e + e')).2 := by
        rw [Nat.pow_add]
        ring
    _ ≤ m * (powerOfTwo e).1 * (m' * (powerOfTwo e').1) * (powerOfTwo (e + e')).2 :=
        Nat.mul_le_mul_right _ (Nat.mul_le_mul hx hy)
    _ = m * m' * ((powerOfTwo e).1 * (powerOfTwo e').1 * (powerOfTwo (e + e')).2) := by ring
    _ = m * m' * (powerOfTwo (e + e')).1 * ((powerOfTwo e).2 * (powerOfTwo e').2) := by
        rw [hadd]
        ring

/-- The product of two numbers stays within the product of what they stay within, if that is in
range. -/
theorem times_staysWithin (hrange : k + j < 1024) (hx : x.StaysWithin k) (hy : y.StaysWithin j) :
    (x.times .double y).StaysWithin (k + j) := by
  cases x with
  | infinite _ => exact hx.elim
  | nan => exact hx.elim
  | finite n m e =>
    cases y with
    | infinite _ => exact hy.elim
    | nan => exact hy.elim
    | finite n' m' e' =>
      have hadd := powerOfTwo_add e e'
      have hpos := Nat.mul_pos (powerOfTwo_pos e).2 (powerOfTwo_pos e').2
      refine BinaryFormat.double_round_staysWithin (powerOfTwo_pos (e + e')).2.ne' hrange ?_
      refine Nat.le_of_mul_le_mul_right ?_ hpos
      calc m * m' * (powerOfTwo (e + e')).1 * ((powerOfTwo e).2 * (powerOfTwo e').2)
          = m * m' * ((powerOfTwo e).2 * (powerOfTwo e').2 * (powerOfTwo (e + e')).1) := by ring
        _ = m * (powerOfTwo e).1 * (m' * (powerOfTwo e').1) * (powerOfTwo (e + e')).2 := by
            rw [← hadd]
            ring
        _ ≤ 2 ^ k * (powerOfTwo e).2 * (2 ^ j * (powerOfTwo e').2) * (powerOfTwo (e + e')).2 :=
            Nat.mul_le_mul_right _ (Nat.mul_le_mul hx hy)
        _ = 2 ^ (k + j) * (powerOfTwo (e + e')).2 * ((powerOfTwo e).2 * (powerOfTwo e').2) := by
            rw [Nat.pow_add]
            ring

/-- A negated number reaches as far on the other side. -/
theorem negate_reaches (h : x.Reaches negative k) : x.negate.Reaches (!negative) k := by
  cases x with
  | finite n m e => exact ⟨congrArg _ h.1, h.2⟩
  | infinite n => exact congrArg _ h
  | nan => exact h

/-- What reaches a power of two is not zero. -/
theorem not_isZero_of_reaches (h : x.Reaches negative k) : x.isZero = false := by
  cases x with
  | finite n m e =>
    have hpos : 0 < 2 ^ k * (powerOfTwo e).2 :=
      Nat.mul_pos (Nat.pow_pos Nat.two_pos) (powerOfTwo_pos e).2
    have hm : m ≠ 0 := by
      rintro rfl
      have hle := h.2
      omega
    simpa [isZero] using hm
  | infinite n => rfl
  | nan => rfl

/-- What reaches `2 ^ 63` is held at the end of the 64-bit range. -/
theorem nearestInt64_of_reaches (h : x.Reaches negative 63) :
    x.nearestInt64 = if negative then int64Min else int64Max := by
  cases x with
  | finite n m e =>
    obtain ⟨rfl, hsize⟩ := h
    have hdown := (powerOfTwo_pos e).2
    -- The nearest integer is at least as far out as the power of two, so it is clamped.
    have hnat : 2 ^ 63 ≤ nearestNat m e := by
      unfold nearestNat
      rw [Nat.le_div_iff_mul_le (by omega)]
      calc 2 ^ 63 * (2 * (powerOfTwo e).2)
          = 2 * (2 ^ 63 * (powerOfTwo e).2) := by ring
        _ ≤ 2 * (m * (powerOfTwo e).1) := Nat.mul_le_mul_left 2 hsize
        _ ≤ 2 * m * (powerOfTwo e).1 + (powerOfTwo e).2 := by
            rw [← Nat.mul_assoc]
            exact Nat.le_add_right _ _
    have hmin : int64Min = -2 ^ 63 := rfl
    have hmax : int64Max = 2 ^ 63 - 1 := rfl
    unfold nearestInt64 clampInt64
    cases n with
    | true => simp only [if_true]; omega
    | false => simp only [Bool.false_eq_true, if_false]; omega
  | infinite n =>
    obtain rfl := h
    rfl
  | nan => exact h.elim

end Binary

namespace Numeral

/-- A significand and a power of ten reach the product of what they reach, if they have a finite
product at all. -/
theorem scaled_reaches {significand exponent i j : Nat} {x : Binary} (hs : 2 ^ i ≤ significand)
    (hexp : 2 ^ j ≤ 10 ^ exponent) (h : scaled significand exponent = some x) :
    x.Reaches false (i + j) := by
  have hleft : (BinaryFormat.double.round false significand 1).Reaches false i :=
    BinaryFormat.double_round_reaches one_ne_zero (by simpa using hs)
  have hright : (powerOfTen exponent).Reaches false j :=
    BinaryFormat.double_round_reaches one_ne_zero (by simpa using hexp)
  unfold scaled at h
  simp only [Int.toNat_natCast, Binary.not_isZero_of_reaches hleft] at h
  rw [if_neg (by omega)] at h
  split at h
  · cases h
  · -- Both factors are finite, since the product is.
    generalize BinaryFormat.double.round false significand 1 = left at h hleft
    generalize powerOfTen exponent = right at h hright
    cases left with
    | finite n m e =>
      cases right with
      | finite n' m' e' =>
        obtain rfl := hleft.1
        obtain rfl := hright.1
        have hproduct := Binary.times_reaches hleft hright
        split at h
        · rename_i hfinite
          obtain rfl := Option.some.inj h
          rwa [hfinite] at hproduct
        · cases h
      | infinite _ => cases h
      | nan => cases h
    | infinite _ => cases h
    | nan => cases h

/-- A significand and a power of ten have a finite product if it is in range. -/
theorem scaled_isSome {significand exponent i j : Nat} (hs : significand ≤ 2 ^ i)
    (hexp : 10 ^ exponent ≤ 2 ^ j) (hrange : i + j < 1024) :
    (scaled significand exponent).isSome = true := by
  have hleft : (BinaryFormat.double.round false significand 1).StaysWithin i :=
    BinaryFormat.double_round_staysWithin one_ne_zero (by omega) (by simpa using hs)
  have hright : (powerOfTen exponent).StaysWithin j :=
    BinaryFormat.double_round_staysWithin one_ne_zero (by omega) (by simpa using hexp)
  have hproduct := Binary.times_staysWithin hrange hleft hright
  -- A power of ten this great would not be in the range of a double.
  have hexponent : exponent ≤ 308 := by
    by_contra hgreater
    have hlarge : 309 ≤ exponent := by omega
    have hten := Nat.pow_le_pow_right (n := 10) (by decide) hlarge
    have htwo := Nat.pow_le_pow_right Nat.two_pos (show j ≤ 1024 by omega)
    exact absurd (hten.trans (hexp.trans htwo)) (by decide +kernel)
  unfold scaled
  simp only [Int.toNat_natCast]
  rw [if_neg (by omega), if_neg (by omega)]
  generalize (BinaryFormat.double.round false significand 1).times .double (powerOfTen exponent) = x
    at hproduct ⊢
  cases x with
  | finite n m e => rfl
  | infinite _ => exact hproduct.elim
  | nan => exact hproduct.elim

/-- An integer that is read as a double reaches what it reaches. -/
theorem exact_reaches {n : Nat} (h : 2 ^ k ≤ n) :
    (exact .double negative n 0).Reaches negative k := by
  have hn : n ≠ 0 := by
    have hpos : 0 < 2 ^ k := Nat.pow_pos Nat.two_pos
    omega
  unfold exact
  have hlength : ¬ (((ofNat n).length : Int) + 0 < -400) := by omega
  simp only [hlength, decide_false, Bool.or_false, beq_iff_eq, hn, if_false]
  split
  · rfl
  · rw [if_pos (Int.le_refl 0)]
    exact BinaryFormat.double_round_reaches one_ne_zero (by simpa using h)

end Numeral

end GuidedTour
