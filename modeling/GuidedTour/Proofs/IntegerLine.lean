import GuidedTour.Proofs.DraftFields
import GuidedTour.Proofs.Json.Accepted
import GuidedTour.Proofs.Json.Writing
import GuidedTour.Proofs.Number.Rounding
import GuidedTour.Proofs.ReviewEach
import GuidedTour.Proofs.Trim

namespace GuidedTour

/-!
# Integers as lines

A line may be given as a number or as a text that holds one. An integer comes out the same either
way: as itself if it fits in 64 bits, else as the end of the range that it lies beyond.

* `SpellsInteger`, `GivesLiteral` — integer literals, and the values that give one;
* `NumberText.value_isSome` — the reader takes literals up to a length; a longer one it may refuse;
* `NumberText.lineOf?_value` — numbers: integers that fit are kept, and all others are read as
  floating-point numbers beyond the range;
* `lineOfText?_between` — texts;
* `line_clamped` — the line of a draft that gives an integer, and of the step that it becomes.
-/

/-! ### Integer literals -/

/-- An integer literal: digits, the first of which is zero only if it is alone, after a minus sign
or none. -/
inductive SpellsInteger : List Char → Int → Prop
  | plain {ds : List Char} (h : IsWhole ds) : SpellsInteger ds (Numeral.digits ds)
  | minus {ds : List Char} (h : IsWhole ds) : SpellsInteger ('-' :: ds) (-(Numeral.digits ds : Int))

/-- A value that gives a literal: the number that the reader takes it for, or a text with blanks
around it. -/
inductive GivesLiteral (w : List Char) : Json → Prop
  | number {value : Json} (hread : Json.parse w = some value) : GivesLiteral w value
  | text {before after : List Char} (hbefore : ∀ c ∈ before, Text.isBlank c = true)
      (hafter : ∀ c ∈ after, Text.isBlank c = true) :
      GivesLiteral w (.string (String.ofList (before ++ w ++ after)))

variable {ds w : List Char} {z : Int}

/-- What is too great becomes the greatest 64-bit integer. -/
theorem clampInt64_of_le (h : 2 ^ 63 ≤ z) : clampInt64 z = int64Max := by
  have hmax : int64Max = 2 ^ 63 - 1 := rfl
  have hmin : int64Min = -2 ^ 63 := rfl
  unfold clampInt64
  omega

/-- What is too small becomes the least 64-bit integer. -/
theorem clampInt64_of_neg_le (h : z ≤ -2 ^ 63) : clampInt64 z = int64Min := by
  have hmax : int64Max = 2 ^ 63 - 1 := rfl
  have hmin : int64Min = -2 ^ 63 := rfl
  unfold clampInt64
  omega

/-! ### Numbers -/

theorem Numeral.digitsFrom_append (n : Nat) (ds es : List Char) :
    digitsFrom n (ds ++ es) = digitsFrom (digitsFrom n ds) es := by
  rw [digitsFrom_eq_foldl, digitsFrom_eq_foldl, digitsFrom_eq_foldl, List.foldl_append]

/-- A digit is worth nine at most. -/
theorem Numeral.digitValue_le {c : Char} (h : c.isDigit = true) : digitValue c ≤ 9 := by
  obtain ⟨-, hle⟩ := Char.isDigit_iff_toNat.mp h
  have hnine : '9'.toNat = 57 := rfl
  unfold digitValue
  omega

/-- A number with more digits behind it is at least the number with as many zeros. -/
theorem Numeral.mul_pow_le_digitsFrom (n : Nat) (ds : List Char) :
    n * 10 ^ ds.length ≤ digitsFrom n ds := by
  induction ds generalizing n with
  | nil =>
    unfold digitsFrom
    rw [List.length_nil]
    omega
  | cons c ds ih =>
    have hle : 10 * n * 10 ^ ds.length ≤ (10 * n + digitValue c) * 10 ^ ds.length :=
      Nat.mul_le_mul_right _ (Nat.le_add_right _ _)
    unfold digitsFrom
    rw [List.length_cons]
    -- The first digit multiplies by ten and adds something; the others do the rest.
    calc n * 10 ^ (ds.length + 1)
        = 10 * n * 10 ^ ds.length := by ring
      _ ≤ (10 * n + digitValue c) * 10 ^ ds.length := hle
      _ ≤ digitsFrom (10 * n + digitValue c) ds := ih _

/-- A number with more digits behind it is less than the next number with as many zeros. -/
theorem Numeral.digitsFrom_lt (n : Nat) (hdigits : ∀ c ∈ ds, c.isDigit = true) :
    digitsFrom n ds < (n + 1) * 10 ^ ds.length := by
  induction ds generalizing n with
  | nil =>
    unfold digitsFrom
    rw [List.length_nil]
    omega
  | cons c ds ih =>
    have hc := digitValue_le (hdigits c List.mem_cons_self)
    have hle : (10 * n + digitValue c + 1) * 10 ^ ds.length ≤ 10 * (n + 1) * 10 ^ ds.length :=
      Nat.mul_le_mul_right _ (by omega)
    unfold digitsFrom
    rw [List.length_cons]
    calc digitsFrom (10 * n + digitValue c) ds
        < (10 * n + digitValue c + 1) * 10 ^ ds.length :=
          ih _ fun d hd => hdigits d (List.mem_cons_of_mem c hd)
      _ ≤ 10 * (n + 1) * 10 ^ ds.length := hle
      _ = (n + 1) * 10 ^ (ds.length + 1) := by ring

/-- Digits are gathered from the left, until the next one does not fit in a word. -/
theorem gather_eq (n : Nat) (ds : List Char) :
    ∃ taken, ds = taken ++ (gather n ds).2 ∧ (gather n ds).1 = Numeral.digitsFrom n taken ∧
      ∀ c ∈ (gather n ds).2.head?, wordMax < 10 * (gather n ds).1 + Numeral.digitValue c := by
  induction ds generalizing n with
  | nil => exact ⟨[], rfl, rfl, by simp [gather]⟩
  | cons c s ih =>
    unfold gather
    simp only
    -- The digit is taken as long as the number still fits in a word with it.
    split
    · rename_i hfull
      refine ⟨[], rfl, rfl, fun d hd => ?_⟩
      obtain rfl := Option.some.inj hd
      exact hfull
    · obtain ⟨taken, hs, hvalue, hrest⟩ := ih (10 * n + Numeral.digitValue c)
      exact ⟨c :: taken, congrArg (c :: ·) hs, hvalue, hrest⟩

/-- The gathered number and the digits that are left make up the whole number. -/
theorem digits_eq_gather (ds : List Char) :
    Numeral.digits ds = Numeral.digitsFrom (gather 0 ds).1 (gather 0 ds).2 := by
  obtain ⟨taken, hds, hvalue, -⟩ := gather_eq 0 ds
  rw [hvalue, ← Numeral.digitsFrom_append, ← hds, Numeral.digits]

/-- What is gathered, with zeros for the digits that are dropped, is no greater than the integer. -/
theorem gather_le (ds : List Char) :
    (gather 0 ds).1 * 10 ^ (gather 0 ds).2.length ≤ Numeral.digits ds := by
  rw [digits_eq_gather]
  exact Numeral.mul_pow_le_digitsFrom _ _

/-- All digits fit, or some are dropped behind a significand of more than 60 bits. -/
theorem gather_cases (hdigits : ∀ c ∈ ds, c.isDigit = true) :
    gather 0 ds = (Numeral.digits ds, []) ∨ 2 ^ 60 ≤ (gather 0 ds).1 ∧ (gather 0 ds).2 ≠ [] := by
  obtain ⟨taken, hds, -, hfull⟩ := gather_eq 0 ds
  cases hrest : (gather 0 ds).2 with
  | nil =>
    have hall := digits_eq_gather ds
    rw [hrest] at hall
    exact .inl (Prod.ext hall.symm hrest)
  | cons c rest =>
    -- What is gathered and one more digit is beyond a word.
    have hc : c.isDigit = true := hdigits c (by rw [hds, hrest]; simp)
    have hnine := Numeral.digitValue_le hc
    have hword : wordMax < 10 * (gather 0 ds).1 + Numeral.digitValue c := hfull c (by simp [hrest])
    have hmax : wordMax = 2 ^ 64 - 1 := rfl
    exact .inr ⟨by omega, List.cons_ne_nil c rest⟩

/-- The literal of digits alone. -/
abbrev NumberText.ofDigits (negative : Bool) (ds : List Char) : NumberText :=
  ⟨negative, ds, none, none⟩

namespace NumberText

/-- A number of digits alone is what was gathered, scaled by the number of digits that are left. -/
theorem magnitude_ofDigits (negative : Bool) (ds : List Char) :
    (ofDigits negative ds).magnitude =
      Numeral.scaled (gather 0 ds).1 ((gather 0 ds).2.length : Int) := by
  simp [magnitude, significand, gather]

/-- The size of a large integer literal is at least `2 ^ 63`, also when digits are dropped. -/
theorem magnitude_reaches {negative : Bool} {x : Binary} (hdigits : ∀ c ∈ ds, c.isDigit = true)
    (hlarge : 2 ^ 63 ≤ Numeral.digits ds) (h : (ofDigits negative ds).magnitude = some x) :
    x.Reaches false 63 := by
  rw [magnitude_ofDigits] at h
  rcases gather_cases hdigits with hall | ⟨hsignificand, hdropped⟩
  · rw [hall] at h
    exact Numeral.scaled_reaches (i := 63) (j := 0) hlarge (by simp) h
  · -- Every dropped digit is worth more than three bits.
    have hten : 2 ^ 3 ≤ 10 ^ (gather 0 ds).2.length := by
      have hlength : 1 ≤ (gather 0 ds).2.length := List.length_pos_iff.mpr hdropped
      have hpow : 10 ^ 1 ≤ 10 ^ (gather 0 ds).2.length := Nat.pow_le_pow_right (by decide) hlength
      omega
    exact Numeral.scaled_reaches (i := 60) (j := 3) hsignificand hten h

/-- Zeros alone give the positive zero. -/
theorem magnitude_of_zero (negative : Bool) (hdigits : ∀ c ∈ ds, c.isDigit = true)
    (hzero : Numeral.digits ds = 0) :
    (ofDigits negative ds).magnitude = some (.finite false 0 (-1074)) := by
  have hle := gather_le ds
  rw [magnitude_ofDigits]
  rcases gather_cases hdigits with hall | ⟨hsignificand, -⟩
  · rw [hall, hzero]
    decide +kernel
  · have hpos : 0 < (gather 0 ds).1 * 10 ^ (gather 0 ds).2.length :=
      Nat.mul_pos (by omega) (Nat.pow_pos (by decide))
    omega

/-- An integer literal of at most 307 digits is not beyond the doubles, however it is rounded. -/
theorem magnitude_isSome (negative : Bool) (hdigits : ∀ c ∈ ds, c.isDigit = true)
    (hlength : ds.length ≤ 307) : (ofDigits negative ds).magnitude.isSome = true := by
  by_cases hzero : Numeral.digits ds = 0
  · rw [magnitude_of_zero negative hdigits hzero]
    rfl
  · have hsignificand : (gather 0 ds).1 ≠ 0 := by
      rcases gather_cases hdigits with hall | ⟨hlarge, -⟩
      · rwa [hall]
      · omega
    have hpower : 10 ^ (gather 0 ds).2.length ≠ 0 := (Nat.pow_pos (by decide)).ne'
    -- The powers of two below both factors are together at most the number itself, which is far
    -- from the greatest double.
    have hbits : 2 ^ ((gather 0 ds).1.log2 + (10 ^ (gather 0 ds).2.length).log2) < 2 ^ 1020 := by
      calc 2 ^ ((gather 0 ds).1.log2 + (10 ^ (gather 0 ds).2.length).log2)
          = 2 ^ (gather 0 ds).1.log2 * 2 ^ (10 ^ (gather 0 ds).2.length).log2 := Nat.pow_add 2 _ _
        _ ≤ (gather 0 ds).1 * 10 ^ (gather 0 ds).2.length :=
            Nat.mul_le_mul (Nat.log2_self_le hsignificand) (Nat.log2_self_le hpower)
        _ ≤ Numeral.digits ds := gather_le ds
        _ < (0 + 1) * 10 ^ ds.length := Numeral.digitsFrom_lt 0 hdigits
        _ = 10 ^ ds.length := Nat.one_mul _
        _ ≤ 10 ^ 307 := Nat.pow_le_pow_right (by decide) hlength
        _ ≤ 2 ^ 1020 := by decide +kernel
    have hlog := (Nat.pow_lt_pow_iff_right (by decide)).mp hbits
    rw [magnitude_ofDigits]
    exact Numeral.scaled_isSome Nat.lt_log2_self.le Nat.lt_log2_self.le (by omega)

/-- The reader takes every integer literal of at most 307 digits. -/
theorem value_isSome (negative : Bool) (hdigits : ∀ c ∈ ds, c.isDigit = true)
    (hlength : ds.length ≤ 307) : (ofDigits negative ds).value.isSome = true := by
  unfold value
  simp only
  split
  · rfl
  · split
    · rfl
    · rw [Option.isSome_map]
      exact magnitude_isSome negative hdigits hlength

/-- An integer literal that has a value gives the integer, held inside 64 bits. -/
theorem lineOf?_value {negative : Bool} {n : Number} (hwhole : IsWhole ds)
    (h : (ofDigits negative ds).value = some n) :
    lineOf? (.number (some n)) =
      some (clampInt64 (if negative then -(Numeral.digits ds : Int) else Numeral.digits ds)) := by
  have hdigits : ∀ c ∈ ds, c.isDigit = true := hwhole.1.2
  have hword : wordMax = 2 ^ 64 - 1 := rfl
  have hleast : int64Min.natAbs = 2 ^ 63 := rfl
  unfold value at h
  simp only [ofDigits, Option.isNone_none, Bool.and_self, Bool.true_and] at h
  cases negative with
  | false =>
    simp only [Bool.not_false, Bool.true_and, Bool.false_and, Bool.false_eq_true, if_false] at h ⊢
    split at h
    · obtain rfl := Option.some.inj h
      rfl
    · -- Beyond the words the integer is read as a floating-point number.
      rename_i hbeyond
      rw [decide_eq_true_eq] at hbeyond
      obtain ⟨x, hx, rfl⟩ := Option.map_eq_some_iff.mp h
      have hreaches := magnitude_reaches hdigits (by omega) hx
      show some x.nearestInt64 = _
      rw [Binary.nearestInt64_of_reaches hreaches, clampInt64_of_le (by omega)]
      rfl
  | true =>
    simp only [Bool.not_true, Bool.false_and, Bool.true_and, Bool.false_eq_true, if_false,
      if_true] at h ⊢
    split at h
    · obtain rfl := Option.some.inj h
      rfl
    · rename_i hbeyond
      rw [Bool.and_eq_true, decide_eq_true_eq, decide_eq_true_eq] at hbeyond
      obtain ⟨x, hx, rfl⟩ := Option.map_eq_some_iff.mp h
      show some x.negate.nearestInt64 = _
      by_cases hzero : Numeral.digits ds = 0
      · obtain rfl := Option.some.inj ((magnitude_of_zero true hdigits hzero).symm.trans hx)
        rw [hzero]
        decide +kernel
      · have hreaches := Binary.negate_reaches (magnitude_reaches hdigits (by omega) hx)
        rw [Binary.nearestInt64_of_reaches hreaches, clampInt64_of_neg_le (by omega)]
        rfl

end NumberText

/-- Digits alone are a literal without a sign. -/
theorem IsWhole.spellsUnsigned (h : IsWhole ds) (negative : Bool) :
    SpellsUnsigned negative ds (.ofDigits negative ds) := by
  simpa using SpellsUnsigned.parts h .absent .absent

/-- An integer literal is a number literal of digits alone. -/
theorem SpellsInteger.exists_number (h : SpellsInteger w z) : ∃ negative ds, IsWhole ds ∧
    ds.length ≤ w.length ∧ SpellsNumber w (.ofDigits negative ds) ∧
      z = if negative then -(Numeral.digits ds : Int) else Numeral.digits ds := by
  cases h with
  | plain hds => exact ⟨false, w, hds, Nat.le_refl _, .plain (hds.spellsUnsigned false), rfl⟩
  | @minus ds hds => exact ⟨true, ds, hds, Nat.le_succ _, .minus (hds.spellsUnsigned true), rfl⟩

/-- The reader takes a number literal for its value, and refuses it if it has none. -/
theorem Json.parse_of_spellsNumber {t : NumberText} (h : SpellsNumber w t) :
    Json.parse w = t.value.map Json.number := by
  have hparse : Document.parse w = some (.number t.value) :=
    Document.parse_eq_some_iff.mpr (.of_spells (.number h))
  rw [Json.parse, hparse]
  rfl

/-! ### Texts -/

/-- A digit is no blank. -/
theorem isBlank_of_isDigit {c : Char} (h : c.isDigit = true) : Text.isBlank c = false := by
  obtain ⟨hlow, hhigh⟩ := Char.isDigit_iff_toNat.mp h
  have hzero : '0'.toNat = 48 := rfl
  have hnine : '9'.toNat = 57 := rfl
  have hblank : ¬ Text.isBlank c = true := by
    simp only [Text.isBlank, Bool.or_eq_true, Bool.and_eq_true, decide_eq_true_eq, beq_iff_eq]
    omega
  simpa using hblank

/-- A digit has no other lower case. -/
theorem toLower_of_isDigit {c : Char} (h : c.isDigit = true) : c.toLower = c := by
  obtain ⟨-, hle⟩ := Char.isDigit_iff_toNat.mp h
  have hupper : ¬ (c.val ≥ 'A'.val ∧ c.val ≤ 'Z'.val) := by
    rintro ⟨hge, -⟩
    have hnat : 'A'.toNat ≤ c.toNat := UInt32.le_iff_toNat_le.mp hge
    have hgap : '9'.toNat < 'A'.toNat := by decide
    omega
  exact dif_neg hupper

/-- An integer literal has no blank at either end. -/
theorem SpellsInteger.isTrimmed (h : SpellsInteger w z) : Text.IsTrimmed w := by
  have hblank : ∀ c ∈ w, Text.isBlank c = false := by
    cases h with
    | plain hwhole => exact fun c hc => isBlank_of_isDigit (hwhole.1.2 c hc)
    | minus hwhole =>
      rintro c (_ | ⟨_, hc⟩)
      · rfl
      · exact isBlank_of_isDigit (hwhole.1.2 c hc)
  exact ⟨fun c hc => hblank c (List.mem_of_mem_head? hc),
    fun c hc => hblank c (List.mem_of_mem_getLast? hc)⟩

namespace Numeral

/-- Digits are read as their number. -/
theorem readNat_of_isDigits (h : IsDigits ds) : readNat ds = some (digits ds) := by
  have hall : ds.all Char.isDigit = true := List.all_eq_true.mpr h.2
  simp [readNat, h.1, hall]

/-- A row of digits is no name and has no fraction, so it is read as the nearest double. -/
theorem readUnsigned_of_isDigits (negative : Bool) (h : IsDigits ds) :
    readUnsigned negative ds = some (exact .double negative (digits ds) 0) := by
  have htake : ds.takeWhile Char.isDigit = ds ∧ ds.dropWhile Char.isDigit = [] := by
    have hend : ∀ c ∈ ([] : List Char).head?, c.isDigit = false := by simp
    simpa using takeWhile_isDigit_append h hend
  obtain ⟨c, s, rfl⟩ := List.exists_cons_of_ne_nil h.1
  have hc := h.2 c List.mem_cons_self
  -- Every name begins with a letter.
  have hname : ∀ {d t}, d.isDigit = false → ((c :: s).map Char.toLower == d :: t) = false := by
    intro d t hd
    rw [List.map_cons, toLower_of_isDigit hc, beq_eq_false_iff_ne]
    intro heq
    obtain ⟨rfl, -⟩ := List.cons.inj heq
    rw [hc] at hd
    cases hd
  have hinf : ((c :: s).map Char.toLower == "inf".toList) = false := hname (by decide)
  have hinfinity : ((c :: s).map Char.toLower == "infinity".toList) = false := hname (by decide)
  have hnan : ((c :: s).map Char.toLower == "nan".toList) = false := hname (by decide)
  unfold readUnsigned
  simp only [hinf, hinfinity, hnan, htake.1, htake.2]
  simp [fractionPart, readExponentPart]

/-- An integer literal is read as its integer if that is in the range, and refused otherwise. -/
theorem readInt_of_spellsInteger {low high : Int} (hlow : low < 0) (h : SpellsInteger w z) :
    readInt low high w = if low ≤ z ∧ z ≤ high then some z else none := by
  cases h with
  | plain hwhole =>
    obtain ⟨c, s, rfl⟩ := List.exists_cons_of_ne_nil hwhole.1.1
    have hc := hwhole.1.2 c List.mem_cons_self
    have hread := readNat_of_isDigits hwhole.1
    unfold readInt
    -- A digit is neither of the two signs.
    split
    · rename_i heq
      obtain ⟨rfl, -⟩ := List.cons.inj heq
      exact absurd hc (by decide)
    · rename_i heq
      obtain ⟨rfl, -⟩ := List.cons.inj heq
      exact absurd hc (by decide)
    · simp [hread]
  | minus hwhole => simp [readInt, hlow, readNat_of_isDigits hwhole.1]

/-- As a floating-point number, an integer literal is rounded once, from the integer itself. -/
theorem readBinary_of_spellsInteger (hz : z ≠ 0) (h : SpellsInteger w z) :
    readBinary w = some (exact .double (decide (z < 0)) z.natAbs 0) := by
  cases h with
  | plain hwhole =>
    obtain ⟨c, s, rfl⟩ := List.exists_cons_of_ne_nil hwhole.1.1
    have hc := hwhole.1.2 c List.mem_cons_self
    have hsign : ¬ (digits (c :: s) : Int) < 0 := by omega
    unfold readBinary
    split
    · rename_i heq
      obtain ⟨rfl, -⟩ := List.cons.inj heq
      exact absurd hc (by decide)
    · rename_i heq
      obtain ⟨rfl, -⟩ := List.cons.inj heq
      exact absurd hc (by decide)
    · rw [readUnsigned_of_isDigits false hwhole.1, decide_eq_false hsign, Int.natAbs_natCast]
  | @minus ds hwhole =>
    have hsign : -(digits ds : Int) < 0 := by omega
    show readUnsigned true ds = _
    rw [readUnsigned_of_isDigits true hwhole.1, decide_eq_true hsign, Int.natAbs_neg,
      Int.natAbs_natCast]

end Numeral

/-- A text of an integer literal with blanks around it gives the integer, held inside 64 bits. -/
theorem lineOfText?_between {before after : List Char} (h : SpellsInteger w z)
    (hbefore : ∀ c ∈ before, Text.isBlank c = true)
    (hafter : ∀ c ∈ after, Text.isBlank c = true) :
    lineOfText? (before ++ w ++ after) = some (clampInt64 z) := by
  have hmin : int64Min = -2 ^ 63 := rfl
  have hmax : int64Max = 2 ^ 63 - 1 := rfl
  show (Numeral.readInt int64Min int64Max (Text.trim _)).or
    ((Numeral.readBinary (Text.trim _)).map Binary.nearestInt64) = _
  rw [Text.trim_between hbefore h.isTrimmed hafter, Numeral.readInt_of_spellsInteger (by decide) h]
  by_cases hrange : int64Min ≤ z ∧ z ≤ int64Max
  · have hclamp : clampInt64 z = z := by
      unfold clampInt64
      omega
    rw [if_pos hrange, Option.some_or, hclamp]
  · -- Beyond 64 bits the text is read again, as a floating-point number.
    have hreaches : (Numeral.exact .double (decide (z < 0)) z.natAbs 0).Reaches (z < 0) 63 :=
      Numeral.exact_reaches (by omega)
    rw [if_neg hrange, Option.none_or, Numeral.readBinary_of_spellsInteger (by omega) h,
      Option.map_some, Binary.nearestInt64_of_reaches hreaches]
    rcases Int.lt_or_le z 0 with hneg | hnonneg
    · rw [clampInt64_of_neg_le (by omega), decide_eq_true hneg]
      rfl
    · rw [clampInt64_of_le (by omega), decide_eq_false (by omega)]
      rfl

/-! ### The line of a draft and of its step -/

/-- A value that gives an integer literal gives the integer as a line, held inside 64 bits. -/
theorem GivesLiteral.lineOf? {value : Json} (h : SpellsInteger w z)
    (hvalue : GivesLiteral w value) :
    GuidedTour.lineOf? value.document = some (clampInt64 z) := by
  -- As a number, the literal is read when the text is parsed; as a text, it is read here.
  cases hvalue with
  | number hread =>
    obtain ⟨negative, ds, hwhole, -, hspells, rfl⟩ := h.exists_number
    rw [Json.parse_of_spellsNumber hspells] at hread
    obtain ⟨n, hn, rfl⟩ := Option.map_eq_some_iff.mp hread
    exact NumberText.lineOf?_value hwhole hn
  | text hbefore hafter =>
    rw [Json.document]
    show lineOfText? (String.toList _) = _
    rw [String.toList_ofList]
    exact lineOfText?_between h hbefore hafter

/-- The step of a draft has the line of the draft, held at 1 or above, unless bounds are strict. -/
theorem line_of_reviewOne {p : Project} {options : ReviewOptions} {index : Nat} {d : Draft}
    {step : Step} (hlax : options.strictLineBounds = false)
    (h : reviewOne p options index d = some step) :
    step.line = d.line.map fun line => (max line 1).toNat := by
  by_cases hopens : d.Opens index
  · rw [reviewOne_of_opens hopens] at h
    obtain rfl := Option.some.inj h
    rfl
  · rw [reviewOne_of_not_opens hopens] at h
    obtain ⟨file, -, rfl⟩ := Option.map_eq_some_iff.mp h
    have hmost : maxLine? p options file = none := by rw [maxLine?, hlax]; rfl
    rw [hmost]
    rfl

/-- **Integer lines are held inside 64 bits, never wrapped.** An object with an integer as its line,
as a number that the reader takes or as a text, is the draft that it is without the line, and the
line is the integer or the end of the range that it lies beyond. A step that comes of the draft
without strict bounds has the line held at 1 or above. The reader takes every number of at most 307
characters. -/
theorem line_clamped {before after : List (String × Json)} (hliteral : SpellsInteger w z)
    (hnew : "line" ∉ (before ++ after).map Prod.fst) :
    (w.length ≤ 307 → ∃ value, Json.parse w = some value) ∧
      ∀ value, GivesLiteral w value →
        Answer.draft? (.object (before ++ ("line", value) :: after)) =
            (Answer.draft? (.object (before ++ after))).map (fun d =>
              { d with line := some (max (-2 ^ 63) (min z (2 ^ 63 - 1))) }) ∧
          ∀ (p : Project) (options : ReviewOptions) (index : Nat) (d : Draft) (step : Step),
            options.strictLineBounds = false →
            Answer.draft? (.object (before ++ ("line", value) :: after)) = some d →
            reviewOne p options index d = some step →
            ∃ line : Nat, step.line = some line ∧ (line : Int) = max 1 (min z (2 ^ 63 - 1)) := by
  refine ⟨?_, fun value hvalue => ?_⟩
  · intro hlength
    obtain ⟨negative, ds, hwhole, hle, hspells, -⟩ := hliteral.exists_number
    have hvalue := NumberText.value_isSome negative hwhole.1.2 (hle.trans hlength)
    obtain ⟨n, hn⟩ := Option.isSome_iff_exists.mp hvalue
    exact ⟨.number n, by rw [Json.parse_of_spellsNumber hspells, hn, Option.map_some]⟩
  · have hline : lineOf? value.document = some (max (-2 ^ 63) (min z (2 ^ 63 - 1))) :=
      hvalue.lineOf? hliteral
    have hdraft : Answer.draft? (.object (before ++ ("line", value) :: after)) = _ :=
      Answer.draft?_insert_line hnew
    rw [hline] at hdraft
    -- The step clamps what the draft has once more, to the first line at least.
    refine ⟨hdraft, fun p options index d step hlax hd hstep => ?_⟩
    rw [hdraft] at hd
    obtain ⟨d', -, rfl⟩ := Option.map_eq_some_iff.mp hd
    refine ⟨_, line_of_reviewOne hlax hstep, ?_⟩
    show ((max (max (-2 ^ 63) (min z (2 ^ 63 - 1))) 1).toNat : Int) = _
    omega

/-- An integer beyond the words, as a number and as a text, in a draft and in the step that it
becomes. -/
theorem line_clamped_beyondWords :
    let w := "-20000000000000000000".toList
    let members : List (String × Json) :=
      [("title", .string "Utilities"), ("file", .string "src/a/Util.ts")]
    SpellsInteger w (-20000000000000000000) ∧ "line" ∉ members.map Prod.fst ∧ w.length ≤ 307 ∧
      ∃ value, Json.parse w = some value ∧
        ∀ given ∈ [value, .string (String.ofList (" ".toList ++ w ++ "\n".toList))],
          GivesLiteral w given ∧ ∃ d step line,
            Answer.draft? (.object (("line", given) :: members)) = some d ∧
              d.line = some (-9223372036854775808) ∧ reviewOne lookAlikes {} 1 d = some step ∧
              step.line = some line ∧ (line : Int) = 1 := by
  intro w members
  have hliteral : SpellsInteger w (-20000000000000000000) :=
    .minus ⟨⟨by decide, List.all_eq_true.mp (by decide)⟩, by decide⟩
  have hnew : "line" ∉ ([] ++ members).map Prod.fst := by decide
  -- Both spellings go through the one statement.
  have hclamped := line_clamped hliteral hnew
  obtain ⟨value, hvalue⟩ := hclamped.1 (by decide)
  refine ⟨hliteral, hnew, by decide, value, hvalue, fun given hgiven => ?_⟩
  have hgives : GivesLiteral w given := by
    rcases List.mem_cons.mp hgiven with rfl | hgiven
    · exact .number hvalue
    · rw [List.mem_singleton.mp hgiven]
      exact .text (List.all_eq_true.mp (by decide)) (List.all_eq_true.mp (by decide))
  obtain ⟨hdraft, hstep⟩ := hclamped.2 given hgives
  have hmembers : Answer.draft? (.object members) =
      some { title := "Utilities", file := "src/a/Util.ts" } := by decide +kernel
  have hread := hdraft.trans (congrArg (Option.map _) hmembers)
  obtain ⟨line, hline, hvalue⟩ := hstep lookAlikes {} 1 _ _ rfl hread rfl
  exact ⟨hgives, _, _, line, hread, rfl, rfl, hline, hvalue⟩

/-- The greatest of the doubles. -/
def greatestDouble : Nat := (2 ^ 53 - 1) * 2 ^ 971

/-- The reader refuses the greatest double written out in full, since it rounds twice, and with it
the whole answer. -/
theorem greatestDouble_refused :
    SpellsInteger (Numeral.ofNat greatestDouble) greatestDouble ∧
      Numeral.exact .double false greatestDouble 0 = .finite false (2 ^ 53 - 1) 971 ∧
      Answer.drafts ("[\x7b\"line\":".toList ++ Numeral.ofNat greatestDouble ++ "\x7d]".toList) ≠
        [{ line := some (max (-2 ^ 63) (min greatestDouble (2 ^ 63 - 1))) }] := by
  have hwhole := Numeral.isWhole_ofNat greatestDouble
  have hinteger : SpellsInteger (Numeral.ofNat greatestDouble) greatestDouble := by
    have hplain := SpellsInteger.plain hwhole
    rwa [Numeral.digits_ofNat] at hplain
  have hvalue : (NumberText.ofDigits false (Numeral.ofNat greatestDouble)).value = none := by
    decide +kernel
  have hnumber : SpellsNumber (Numeral.ofNat greatestDouble)
      (.ofDigits false (Numeral.ofNat greatestDouble)) := .plain (hwhole.spellsUnsigned false)
  have harray : Answer.array?
      ("[\x7b\"line\":".toList ++ Numeral.ofNat greatestDouble ++ "\x7d]".toList) =
        some ("[\x7b\"line\":".toList ++ Numeral.ofNat greatestDouble ++ "\x7d]".toList) := by
    decide +kernel
  refine ⟨hinteger, by decide +kernel, ?_⟩
  -- The digits are over three hundred, so they are put out of sight before the text is read.
  generalize Numeral.ofNat greatestDouble = w at hvalue hnumber harray ⊢
  have hkey : SpellsString ("\"line\"".toList) (some "line") := spellsString_quoted "line"
  have hmember : SpellsMember ("\"line\"".toList ++ ':' :: w) (some "line", .number none) := by
    rw [← hvalue]
    exact .pair isGap_nil hkey isGap_nil (.of_spells (.number hnumber))
  have hspells : Spells ("[\x7b\"line\":".toList ++ w ++ "\x7d]".toList)
      (.array [.object [(some "line", .number none)]]) := by
    simpa using Spells.array (.last (.of_spells (.object (.last hmember))))
  rw [Answer.drafts, harray, Option.bind_some, Json.parse,
    Document.parse_eq_some_iff.mpr (.of_spells hspells)]
  intro h
  cases h

end GuidedTour
