import GuidedTour.Proofs.Json.Grammar

namespace GuidedTour

/-!
# Reading number literals

* `readNumber_of_spells` — a number literal is read to its end, if what follows cannot be more of it;
* `exists_of_readNumber` — what is read is a number literal;
* `spellsNumber_ofInt` — the decimal digits of an integer are a number literal.
-/

variable {s w rest : List Char}

/-- A text that a number literal in front of it does not run into. -/
def EndsNumber (rest : List Char) : Prop :=
  ∀ c ∈ rest.head?, c.isDigit = false ∧ c ≠ '.' ∧ c ≠ 'e' ∧ c ≠ 'E'

/-! ### Digits -/

/-- Digits are taken up to what follows them, if that is no digit. -/
theorem takeWhile_isDigit_append {ds : List Char} (hds : IsDigits ds)
    (hrest : ∀ c ∈ rest.head?, c.isDigit = false) :
    (ds ++ rest).takeWhile Char.isDigit = ds ∧ (ds ++ rest).dropWhile Char.isDigit = rest := by
  -- Behind the digits the reader stops at once.
  have hstop : rest.takeWhile Char.isDigit = [] ∧ rest.dropWhile Char.isDigit = rest := by
    cases rest with
    | nil => simp
    | cons c s => simp [hrest c rfl]
  rw [List.takeWhile_append_of_pos hds.2, List.dropWhile_append_of_pos hds.2, hstop.1, hstop.2]
  simp

/-- What is taken are digits, if anything is. -/
theorem isDigits_takeWhile (h : (s.takeWhile Char.isDigit).isEmpty = false) :
    IsDigits (s.takeWhile Char.isDigit) := by
  refine ⟨fun hnil => by simp [hnil] at h, fun c hc => ?_⟩
  exact List.all_eq_true.mp List.all_takeWhile c hc

/-! ### Parts of a literal -/

/-- A fraction is read to its end. -/
theorem readFraction_of_spells {f : Option (List Char)} (h : SpellsFraction w f)
    (hrest : ∀ c ∈ rest.head?, c.isDigit = false ∧ c ≠ '.') :
    readFraction (w ++ rest) = some (f, rest) := by
  cases h with
  | absent =>
    rw [List.nil_append]
    unfold readFraction
    split
    · -- A point in what follows would be read as the fraction's.
      exact absurd rfl (hrest '.' rfl).2
    · rfl
  | present hds =>
    obtain ⟨htake, hdrop⟩ := takeWhile_isDigit_append hds fun c hc => (hrest c hc).1
    simp [readFraction, htake, hdrop, hds.1]

/-- What is read as a fraction is one. -/
theorem exists_of_readFraction {f : Option (List Char)} (h : readFraction s = some (f, rest)) :
    ∃ w, s = w ++ rest ∧ SpellsFraction w f := by
  unfold readFraction at h
  split at h
  · rename_i t
    simp only at h
    split at h
    · cases h
    · rename_i hds
      obtain ⟨rfl, rfl⟩ := Prod.mk.inj (Option.some.inj h)
      exact ⟨'.' :: t.takeWhile Char.isDigit, by simp [List.takeWhile_append_dropWhile],
        .present (isDigits_takeWhile (by simpa using hds))⟩
  · obtain ⟨rfl, rfl⟩ := Prod.mk.inj (Option.some.inj h)
    exact ⟨[], rfl, .absent⟩

/-- The sign of an exponent is read, with the digits left over. -/
theorem readExponentSign_of_spells {sign ds : List Char} {down : Bool} (h : SpellsSign sign down)
    (hds : IsDigits ds) : readExponentSign (sign ++ (ds ++ rest)) = (down, ds ++ rest) := by
  cases h with
  | absent =>
    obtain ⟨c, t, rfl⟩ := List.exists_cons_of_ne_nil hds.1
    have hc := hds.2 c List.mem_cons_self
    -- Neither sign is a digit.
    simp only [List.nil_append, List.cons_append]
    unfold readExponentSign
    split
    · rename_i heq
      obtain ⟨rfl, -⟩ := List.cons.inj heq
      exact absurd hc (by decide)
    · rename_i heq
      obtain ⟨rfl, -⟩ := List.cons.inj heq
      exact absurd hc (by decide)
    · rfl
  | plus => rfl
  | minus => rfl

/-- What is read as the sign of an exponent is one, or nothing. -/
theorem exists_of_readExponentSign (s : List Char) :
    ∃ sign, s = sign ++ (readExponentSign s).2 ∧ SpellsSign sign (readExponentSign s).1 := by
  unfold readExponentSign
  split
  · exact ⟨_, rfl, .plus⟩
  · exact ⟨_, rfl, .minus⟩
  · exact ⟨_, rfl, .absent⟩

/-- An exponent is read to its end. -/
theorem readExponentOf_of_spells {e : Option (Bool × List Char)} (h : SpellsExponent w e)
    (hrest : EndsNumber rest) : readExponentOf (w ++ rest) = some (e, rest) := by
  cases h with
  | absent =>
    cases rest with
    | nil => rfl
    | cons c s =>
      obtain ⟨-, -, he, hE⟩ := hrest c rfl
      simp [readExponentOf, he, hE]
  | present hletter hsign hds =>
    obtain ⟨htake, hdrop⟩ := takeWhile_isDigit_append hds fun c hc => (hrest c hc).1
    simp only [List.cons_append, List.append_assoc, readExponentOf]
    rw [if_pos (by simpa using hletter), readExponentSign_of_spells hsign hds]
    simp [htake, hdrop, hds.1]

/-- What is read as an exponent is one. -/
theorem exists_of_readExponentOf {e : Option (Bool × List Char)}
    (h : readExponentOf s = some (e, rest)) : ∃ w, s = w ++ rest ∧ SpellsExponent w e := by
  cases s with
  | nil =>
    obtain ⟨rfl, rfl⟩ := Prod.mk.inj (Option.some.inj h)
    exact ⟨[], rfl, .absent⟩
  | cons c t =>
    simp only [readExponentOf] at h
    split at h
    · -- The letter is there, so digits have to follow.
      rename_i hletter
      obtain ⟨sign, ht, hsign⟩ := exists_of_readExponentSign t
      split at h
      · cases h
      · rename_i hds
        obtain ⟨rfl, rfl⟩ := Prod.mk.inj (Option.some.inj h)
        refine ⟨c :: (sign ++ (readExponentSign t).2.takeWhile Char.isDigit), ?_,
          .present (by simpa using hletter) hsign (isDigits_takeWhile (by simpa using hds))⟩
        rw [List.cons_append, List.append_assoc, List.takeWhile_append_dropWhile, ← ht]
    · obtain ⟨rfl, rfl⟩ := Prod.mk.inj (Option.some.inj h)
      exact ⟨[], rfl, .absent⟩

/-! ### The literal -/

/-- The digits and the fraction before an exponent do not run into it. -/
theorem SpellsExponent.head_append {e : Option (Bool × List Char)} (h : SpellsExponent w e)
    (hrest : EndsNumber rest) : ∀ c ∈ (w ++ rest).head?, c.isDigit = false ∧ c ≠ '.' := by
  cases h with
  | absent => exact fun c hc => ⟨(hrest c hc).1, (hrest c hc).2.1⟩
  | present hletter =>
    intro c hc
    obtain rfl := Option.some.inj hc
    rcases hletter with rfl | rfl <;> decide

theorem SpellsFraction.head_append {f : Option (List Char)} (h : SpellsFraction w f)
    (hrest : ∀ c ∈ rest.head?, c.isDigit = false) :
    ∀ c ∈ (w ++ rest).head?, c.isDigit = false := by
  cases h with
  | absent => exact hrest
  | present => exact fun c hc => Option.some.inj hc ▸ rfl

/-- What the reader asks of the digits before the point. -/
theorem isWhole_iff {ds : List Char} (hdigits : ∀ c ∈ ds, c.isDigit = true) :
    IsWhole ds ↔ ¬(ds.isEmpty || (ds.head? == some '0' && 1 < ds.length)) = true := by
  cases ds with
  | nil => simp [IsWhole, IsDigits]
  | cons c t =>
    have hds : IsDigits (c :: t) := ⟨List.cons_ne_nil c t, hdigits⟩
    by_cases hzero : c = '0'
    · subst hzero
      simp [IsWhole, hds]
    · simp [IsWhole, hds, hzero]

/-- A literal without its sign is read to its end. -/
theorem readUnsignedNumber_of_spells {negative : Bool} {t : NumberText}
    (h : SpellsUnsigned negative w t) (hrest : EndsNumber rest) :
    readUnsignedNumber negative (w ++ rest) = some (t, rest) := by
  obtain ⟨hwhole, hfraction, hexponent⟩ := h
  -- Each part ends where the next one begins, so the parts are read off from the last to the first.
  have hhead := hexponent.head_append hrest
  obtain ⟨htake, hdrop⟩ := takeWhile_isDigit_append hwhole.1
    (hfraction.head_append fun c hc => (hhead c hc).1)
  simp only [readUnsignedNumber, List.append_assoc, htake, hdrop]
  rw [if_neg ((isWhole_iff hwhole.1.2).mp hwhole), readFraction_of_spells hfraction hhead]
  simp [readExponentOf_of_spells hexponent hrest]

/-- What is read behind the sign is a literal without one. -/
theorem exists_of_readUnsignedNumber {negative : Bool} {t : NumberText}
    (h : readUnsignedNumber negative s = some (t, rest)) :
    ∃ w, s = w ++ rest ∧ SpellsUnsigned negative w t := by
  have hdigits : ∀ c ∈ s.takeWhile Char.isDigit, c.isDigit = true :=
    List.all_eq_true.mp List.all_takeWhile
  simp only [readUnsignedNumber] at h
  split at h
  · cases h
  · rename_i hwhole
    simp only [Option.pure_def, Option.bind_eq_bind, Option.bind_eq_some_iff, Prod.exists] at h
    obtain ⟨f, s', hf, e, s'', he, ht⟩ := h
    obtain ⟨rfl, rfl⟩ := Prod.mk.inj (Option.some.inj ht)
    obtain ⟨fraction, hs, hfraction⟩ := exists_of_readFraction hf
    obtain ⟨exponent, rfl, hexponent⟩ := exists_of_readExponentOf he
    refine ⟨_, ?_, .parts ((isWhole_iff hdigits).mpr hwhole) hfraction hexponent⟩
    rw [List.append_assoc, List.append_assoc, ← hs, List.takeWhile_append_dropWhile]

/-- A literal without its sign begins with a digit. -/
theorem SpellsUnsigned.exists_digit {negative : Bool} {t : NumberText}
    (h : SpellsUnsigned negative w t) : ∃ c s, w = c :: s ∧ c.isDigit = true := by
  obtain ⟨hwhole, -, -⟩ := h
  obtain ⟨c, s, rfl⟩ := List.exists_cons_of_ne_nil hwhole.1.1
  exact ⟨c, _, rfl, hwhole.1.2 c List.mem_cons_self⟩

/-- A number literal is read to its end. -/
theorem readNumber_of_spells {t : NumberText} (h : SpellsNumber w t) (hrest : EndsNumber rest) :
    readNumber (w ++ rest) = some (t, rest) := by
  cases h with
  | plain h =>
    -- It begins with a digit, so the reader sees no minus.
    obtain ⟨c, s, rfl, hc⟩ := h.exists_digit
    have hread := readUnsignedNumber_of_spells h hrest
    unfold readNumber
    split
    · rename_i heq
      obtain ⟨rfl, -⟩ := List.cons.inj heq
      exact absurd hc (by decide)
    · exact hread
  | minus h => exact readUnsignedNumber_of_spells h hrest

/-- What is read as a number is a number literal. -/
theorem exists_of_readNumber {t : NumberText} (h : readNumber s = some (t, rest)) :
    ∃ w, s = w ++ rest ∧ SpellsNumber w t := by
  unfold readNumber at h
  split at h
  · obtain ⟨w, rfl, hw⟩ := exists_of_readUnsignedNumber h
    exact ⟨_, rfl, .minus hw⟩
  · obtain ⟨w, rfl, hw⟩ := exists_of_readUnsignedNumber h
    exact ⟨w, rfl, .plain hw⟩

/-! ### Integers -/

theorem Numeral.digitsFrom_eq_foldl (n : Nat) (ds : List Char) :
    Numeral.digitsFrom n ds = ds.foldl (fun n c => 10 * n + Numeral.digitValue c) n := by
  induction ds generalizing n with
  | nil => rfl
  | cons c ds ih => exact ih _

/-- The digits of a number are read back as the number. -/
@[simp] theorem Numeral.digits_ofNat (n : Nat) : Numeral.digits (Numeral.ofNat n) = n := by
  have hvalue : ∀ c : Char, Numeral.digitValue c = c.toNat - '0'.toNat := fun c => by
    simp [Numeral.digitValue]
  simp only [Numeral.digits, Numeral.digitsFrom_eq_foldl, Numeral.ofNat, hvalue,
    ← Nat.ofDigitChars_eq_foldl, Nat.ofDigitChars_ten_toDigits]

/-- The digits of a positive number do not begin with a zero. -/
theorem Numeral.head?_ofNat {n : Nat} (h : 0 < n) : (Numeral.ofNat n).head? ≠ some '0' := by
  induction n using Nat.strongRecOn with
  | _ n ih =>
    rw [Numeral.ofNat, Nat.toDigits_eq_if (by decide)]
    split
    · simpa [Nat.digitChar_eq_zero] using Nat.ne_of_gt h
    · -- The first digit is that of `n / 10`, which is not zero either.
      have hhead := ih (n / 10) (by omega) (by omega)
      obtain ⟨c, ds, hds⟩ := List.exists_cons_of_ne_nil (Nat.toDigits_ne_nil (n := n / 10) (b := 10))
      rw [Numeral.ofNat, hds] at hhead
      rw [hds]
      exact hhead

/-- The digits of a number may stand before the point. -/
theorem Numeral.isWhole_ofNat (n : Nat) : IsWhole (Numeral.ofNat n) := by
  refine ⟨⟨Nat.toDigits_ne_nil, fun c => Nat.isDigit_of_mem_toDigits (by decide) (by decide)⟩, ?_⟩
  intro hzero
  -- Zero is the one number whose digits begin with a zero.
  rcases Nat.eq_zero_or_pos n with rfl | hpos
  · rfl
  · exact absurd hzero (head?_ofNat hpos)

/-- The literal of an integer. -/
def NumberText.ofInt (z : Int) : NumberText := ⟨z < 0, Numeral.ofNat z.natAbs, none, none⟩

/-- The digits of an integer, with a minus sign where it is negative, are a number literal. -/
theorem spellsNumber_ofInt (z : Int) : SpellsNumber (Numeral.ofInt z) (.ofInt z) := by
  have hparts : ∀ negative, SpellsUnsigned negative (Numeral.ofNat z.natAbs)
      ⟨negative, Numeral.ofNat z.natAbs, none, none⟩ := fun negative => by
    simpa using SpellsUnsigned.parts (Numeral.isWhole_ofNat z.natAbs) .absent .absent
  unfold Numeral.ofInt NumberText.ofInt
  split
  · rename_i hneg
    simpa [hneg] using SpellsNumber.minus (hparts true)
  · rename_i hneg
    simpa [hneg] using SpellsNumber.plain (hparts false)

/-- An integer that fits in 64 bits, with sign or without, is read as itself. -/
theorem NumberText.value_ofInt {z : Int} (hmin : int64Min ≤ z) (hmax : z ≤ wordMax) :
    (NumberText.ofInt z).value = some (.int z) := by
  simp only [NumberText.value, NumberText.ofInt, Numeral.digits_ofNat, Option.isNone_none,
    Bool.and_self, Bool.true_and]
  -- A literal with a minus sign is held against the least integer, and one without against the
  -- greatest word.
  rcases Int.lt_or_le z 0 with hneg | hpos
  · have hsize : 0 < z.natAbs ∧ z.natAbs ≤ int64Min.natAbs := by omega
    have hvalue : -(z.natAbs : Int) = z := by omega
    rw [if_neg (by simp [hneg]), if_pos (by simp [hneg, hsize]), hvalue]
  · have hsize : z.natAbs ≤ wordMax := by omega
    have hvalue : (z.natAbs : Int) = z := by omega
    rw [if_pos (by simp [hpos, hsize]), hvalue]

end GuidedTour
