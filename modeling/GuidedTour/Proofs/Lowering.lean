import GuidedTour.Text.Lower

namespace GuidedTour.Text

/-!
# Lower case, character by character

What a text in lower case looks like, character by character and part by part.

* `lowerAfter` — the lower case of a text that stands behind another one; `lower_eq` says that it is
  what `lowerFrom` gathers;
* `lower_cons`, `lower_append_break` — where a text can be taken apart: in front of everything,
  behind a character that is not cased, and at one that is also not passed over between letters;
* `lower_map_toLower` — the case of ASCII letters does not matter;
* `IsLowered` — a character that is its own lower case; `mem_lower` says that a text in lower case
  is made of such characters, and that all its ASCII characters but letters stood there before;
* `lower_lower` — a text in lower case stays as it is.
-/

variable {a s t before after : List Char} {c d : Char}

/-! ### Without the characters gathered so far -/

/-- The lower case of a text that stands behind another one; `before` is given backwards. -/
def lowerAfter (before : List Char) : List Char → List Char
  | [] => []
  | c :: s => lowerBetween before c s ++ lowerAfter (c :: before) s

/-- What is gathered stands in front, backwards. -/
theorem lowerFrom_eq (before done s : List Char) :
    lowerFrom before done s = done.reverse ++ lowerAfter before s := by
  -- Both lists grow along the text.
  induction s generalizing before done with
  | nil => simp [lowerFrom, lowerAfter]
  | cons c s ih => rw [lowerFrom, ih, lowerAfter, List.reverse_append, List.reverse_reverse,
      List.append_assoc]

theorem lower_eq (s : List Char) : lower s = lowerAfter [] s := lowerFrom_eq [] [] s

/-! ### Parts of a text -/

/-- A character that is not cased. -/
def IsUncased (c : Char) : Prop := inRanges casedRanges c.toNat = false

/-- A character that is not cased and is not passed over where cased ones are looked for. -/
structure IsBreak (c : Char) : Prop where
  uncased : IsUncased c
  counted : inRanges caseIgnorableRanges c.toNat = false

instance IsUncased.decidable (c : Char) : Decidable (IsUncased c) :=
  inferInstanceAs (Decidable (inRanges casedRanges c.toNat = false))

instance IsBreak.decidable (c : Char) : Decidable (IsBreak c) :=
  decidable_of_iff (IsUncased c ∧ inRanges caseIgnorableRanges c.toNat = false)
    ⟨fun h => ⟨h.1, h.2⟩, fun h => ⟨h.1, h.2⟩⟩

theorem casedNext_cons (c : Char) (s : List Char) :
    casedNext (c :: s) =
      if inRanges caseIgnorableRanges c.toNat then casedNext s
      else inRanges casedRanges c.toNat := by
  unfold casedNext
  cases hc : inRanges caseIgnorableRanges c.toNat <;> simp [hc]

/-- At the far end, a character that is not cased makes no difference. -/
theorem casedNext_concat (hc : IsUncased c) (s : List Char) :
    casedNext (s ++ [c]) = casedNext s := by
  induction s with
  | nil =>
    show casedNext [c] = false
    rw [casedNext_cons]
    split
    · rfl
    · exact hc
  | cons d s ih => rw [List.cons_append, casedNext_cons, casedNext_cons, ih]

/-- Nothing is seen beyond a break. -/
theorem casedNext_break (hc : IsBreak c) (a s : List Char) :
    casedNext (a ++ c :: s) = casedNext a := by
  induction a with
  | nil =>
    show casedNext (c :: s) = false
    rw [casedNext_cons, if_neg (by simp [hc.counted])]
    exact hc.uncased
  | cons d a ih => rw [List.cons_append, casedNext_cons, casedNext_cons, ih]

/-- Of the characters around it, a character sees only whether a cased one is next. -/
theorem lowerBetween_congr {before' after' : List Char}
    (hbefore : casedNext before = casedNext before')
    (hafter : casedNext after = casedNext after') (c : Char) :
    lowerBetween before c after = lowerBetween before' c after' := by
  unfold lowerBetween
  rw [hbefore, hafter]

/-- A character that is not cased sees nothing of those around it. -/
theorem lowerBetween_uncased (hc : IsUncased c) : lowerBetween before c after = lowerChar c := by
  unfold lowerBetween
  refine if_neg fun hsigma => ?_
  -- the capital sigma is cased
  have hcased : inRanges casedRanges 0x3A3 = true := by decide +kernel
  rw [← beq_iff_eq.mp hsigma, hc] at hcased
  cases hcased

/-- A character that is not cased makes no difference at the very front. -/
theorem lowerAfter_concat (hc : IsUncased c) (before s : List Char) :
    lowerAfter (before ++ [c]) s = lowerAfter before s := by
  induction s generalizing before with
  | nil => rfl
  | cons d s ih =>
    unfold lowerAfter
    rw [lowerBetween_congr (casedNext_concat hc before) rfl, ← List.cons_append, ih]

/-- In front of a text stands a character that is not cased. -/
theorem lower_cons (hc : IsUncased c) (s : List Char) :
    lower (c :: s) = lowerChar c ++ lower s := by
  rw [lower_eq, lower_eq, lowerAfter, lowerBetween_uncased hc]
  exact congrArg _ (lowerAfter_concat hc [] s)

/-- A break parts a text in two wherever the text stands. -/
theorem lowerAfter_append_break (hc : IsBreak c) (before a s : List Char) :
    lowerAfter before (a ++ c :: s) = lowerAfter before a ++ (lowerChar c ++ lower s) := by
  induction a generalizing before with
  | nil =>
    -- behind the break nothing is seen of what stands before it
    have hbehind : ∀ near : List Char,
        lowerAfter (near ++ c :: before) s = lowerAfter near s := by
      induction s with
      | nil => exact fun near => rfl
      | cons d s ih =>
        intro near
        unfold lowerAfter
        rw [lowerBetween_congr (casedNext_break hc near before) rfl, ← List.cons_append, ih]
    show lowerBetween before c s ++ lowerAfter ([] ++ c :: before) s = _
    rw [lowerBetween_uncased hc.uncased, hbehind, lower_eq]
    rfl
  | cons d a ih =>
    rw [List.cons_append, lowerAfter, lowerAfter, ih, List.append_assoc]
    rw [lowerBetween_congr rfl (casedNext_break hc a s)]

/-- A break parts a text in two. -/
theorem lower_append_break (hc : IsBreak c) (a s : List Char) :
    lower (a ++ c :: s) = lower a ++ (lowerChar c ++ lower s) := by
  rw [lower_eq a, lower_eq, lowerAfter_append_break hc]

/-! ### ASCII letters -/

/-- The capital ASCII letters by their numbers, of which there are 26. -/
def capital (n : Nat) : Char := Char.ofNat (65 + n)

/-- A character with another lower case in ASCII is one of the capital letters. -/
theorem exists_capital (h : c.toLower ≠ c) : ∃ n < 26, c = capital n := by
  unfold Char.toLower at h
  split at h
  · next hrange =>
    obtain ⟨hlow, hhigh⟩ := hrange
    have hlow' : 65 ≤ c.toNat := hlow
    have hhigh' : c.toNat ≤ 90 := hhigh
    refine ⟨c.toNat - 65, by omega, ?_⟩
    rw [capital, Nat.add_sub_cancel' hlow', Char.ofNat_toNat]
  · exact absurd rfl h

/-- What is the same for each capital letter and its small one is the same for each character and
its lower case in ASCII. -/
theorem eq_toLower_of_capitals {α : Type} {f : Char → α}
    (h : ∀ n < 26, f (capital n).toLower = f (capital n)) (c : Char) : f c.toLower = f c := by
  by_cases hc : c.toLower = c
  · rw [hc]
  · obtain ⟨n, hn, rfl⟩ := exists_capital hc
    exact h n hn

/-- In ASCII only the ranges that begin there matter. -/
theorem inRanges_ascii {n : Nat} (hn : n < 128) (ranges : List (Nat × Nat)) :
    inRanges ranges n = inRanges (ranges.filter fun r => r.1 < 128) n := by
  unfold inRanges
  rw [List.any_filter]
  congr 1
  funext r
  by_cases hr : r.1 ≤ n
  · have : r.1 < 128 := by omega
    simp [this]
  · simp [hr]

/-- Whether a cased character is next does not depend on the case of ASCII letters. -/
theorem casedNext_map_toLower (s : List Char) : casedNext (s.map Char.toLower) = casedNext s := by
  -- Of the two tables, only what begins in ASCII is looked at for an ASCII letter.
  have hranges : casedRanges.filter (fun r => r.1 < 128) = [(65, 90), (97, 122)] ∧
      caseIgnorableRanges.filter (fun r => r.1 < 128) =
        [(39, 39), (46, 46), (58, 58), (94, 94), (96, 96)] := by decide +kernel
  have hletters : ∀ n < 26, (capital n).toNat < 128 ∧ (capital n).toLower.toNat < 128 := by
    decide +kernel
  have hcased : ∀ c : Char, inRanges casedRanges c.toLower.toNat =
      inRanges casedRanges c.toNat := by
    apply eq_toLower_of_capitals (f := fun c => inRanges casedRanges c.toNat)
    intro n hn
    show inRanges casedRanges (capital n).toLower.toNat = inRanges casedRanges (capital n).toNat
    rw [inRanges_ascii (hletters n hn).1, inRanges_ascii (hletters n hn).2, hranges.1]
    revert n
    decide +kernel
  have hignorable : ∀ c : Char, inRanges caseIgnorableRanges c.toLower.toNat =
      inRanges caseIgnorableRanges c.toNat := by
    apply eq_toLower_of_capitals (f := fun c => inRanges caseIgnorableRanges c.toNat)
    intro n hn
    show inRanges caseIgnorableRanges (capital n).toLower.toNat =
      inRanges caseIgnorableRanges (capital n).toNat
    rw [inRanges_ascii (hletters n hn).1, inRanges_ascii (hletters n hn).2, hranges.2]
    revert n
    decide +kernel
  induction s with
  | nil => rfl
  | cons c s ih => rw [List.map_cons, casedNext_cons, casedNext_cons, ih, hignorable, hcased]

/-- A capital ASCII letter and its small one have the same lower case. -/
theorem lowerBetween_toLower (before after : List Char) (c : Char) :
    lowerBetween before c.toLower after = lowerBetween before c after := by
  have hchar : ∀ c : Char, lowerChar c.toLower = lowerChar c := by
    apply eq_toLower_of_capitals
    decide +kernel
  have hsigma : ∀ c : Char, (c.toLower.toNat == 0x3A3) = (c.toNat == 0x3A3) := by
    apply eq_toLower_of_capitals (f := fun c => c.toNat == 0x3A3)
    decide +kernel
  unfold lowerBetween
  rw [hchar, hsigma]

/-- The case of ASCII letters does not matter, neither in the text nor before it. -/
theorem lowerAfter_map_toLower (before s : List Char) :
    lowerAfter (before.map Char.toLower) (s.map Char.toLower) = lowerAfter before s := by
  induction s generalizing before with
  | nil => rfl
  | cons c s ih =>
    rw [List.map_cons, lowerAfter, lowerAfter, ← List.map_cons, ih, lowerBetween_toLower]
    rw [lowerBetween_congr (casedNext_map_toLower before) (casedNext_map_toLower s)]

/-- The case of ASCII letters does not matter. -/
theorem lower_map_toLower (s : List Char) : lower (s.map Char.toLower) = lower s := by
  rw [lower_eq, lower_eq]
  exact lowerAfter_map_toLower [] s

/-! ### Characters in lower case -/

/-- A character that is its own lower case, whatever stands around it. -/
structure IsLowered (c : Char) : Prop where
  not_sigma : c.toNat ≠ 0x3A3
  same : lowerChar c = [c]

instance IsLowered.decidable (c : Char) : Decidable (IsLowered c) :=
  decidable_of_iff (c.toNat ≠ 0x3A3 ∧ lowerChar c = [c]) ⟨fun h => ⟨h.1, h.2⟩, fun h => ⟨h.1, h.2⟩⟩

/-- A character in lower case stays as it is between any others. -/
theorem IsLowered.lowerBetween_eq (h : IsLowered c) (before after : List Char) :
    lowerBetween before c after = [c] := by
  unfold lowerBetween
  rw [if_neg (by simpa using h.not_sigma), h.same]

/-- A text of characters in lower case stays as it is behind any other. -/
theorem lowerAfter_eq_self (h : ∀ c ∈ s, IsLowered c) (before : List Char) :
    lowerAfter before s = s := by
  induction s generalizing before with
  | nil => rfl
  | cons c s ih =>
    obtain ⟨hc, hs⟩ := List.forall_mem_cons.mp h
    rw [lowerAfter, hc.lowerBetween_eq, ih hs]
    rfl

/-- A text of characters in lower case stays as it is. -/
theorem lower_eq_self (h : ∀ c ∈ s, IsLowered c) : lower s = s := by
  rw [lower_eq, lowerAfter_eq_self h]

/-! ### The table of lower cases -/

/-- A run of code points, its step, and the distance to their lower cases. -/
abbrev Run := Nat × Nat × Nat × Int

/-- The least and the greatest code point that a run is mapped to. -/
def imageLow (run : Run) : Nat := (run.1 + run.2.2.2 : Int).toNat

@[inherit_doc imageLow]
def imageHigh (run : Run) : Nat := (run.2.1 + run.2.2.2 : Int).toNat

/-- Whether the code points from `low` to `high` miss a run. With `gaps` they are every other one of
them, and so may also lie between the members of a run that has gaps. -/
def misses (low high : Nat) (gaps : Bool) (run : Run) : Bool :=
  high.blt run.1 || run.2.1.blt low || (gaps && run.2.2.1.beq 2 && ((low + run.1) % 2).beq 1)

/-- No run is mapped into a run. -/
theorem image_misses : lowerRuns.all (fun run => lowerRuns.all
    (misses (imageLow run) (imageHigh run) (run.2.2.1.beq 2 || run.1.beq run.2.1))) = true := by
  decide +kernel

/-- Every run is mapped to valid code points, and not to U+0130. Apart from the Kelvin sign, which
is mapped to an ASCII letter, none of them is in ASCII. -/
structure HasSoundImage (run : Run) : Prop where
  ascii : 128 ≤ imageLow run ∨ imageLow run = 107 ∧ imageHigh run = 107
  not_dotted : imageHigh run < 0x130 ∨ 0x130 < imageLow run
  valid : imageHigh run < 0xD800 ∨ 0xDFFF < imageLow run ∧ imageHigh run < 0x110000

instance HasSoundImage.decidable (run : Run) : Decidable (HasSoundImage run) :=
  decidable_of_iff ((128 ≤ imageLow run ∨ imageLow run = 107 ∧ imageHigh run = 107) ∧
      (imageHigh run < 0x130 ∨ 0x130 < imageLow run) ∧
      (imageHigh run < 0xD800 ∨ 0xDFFF < imageLow run ∧ imageHigh run < 0x110000))
    ⟨fun h => ⟨h.1, h.2.1, h.2.2⟩, fun h => ⟨h.1, h.2, h.3⟩⟩

/-- The table of lower cases is sound, run by run. -/
theorem hasSoundImage : ∀ run ∈ lowerRuns, HasSoundImage run := by decide +kernel

/-- A code point of a run is mapped to one between the least and the greatest image, with the parity
of the least one if the step of the run is two. -/
structure IsImage (run : Run) (m : Nat) : Prop where
  low : imageLow run ≤ m
  high : m ≤ imageHigh run
  parity : run.2.2.1 = 2 ∨ run.1 = run.2.1 → m % 2 = imageLow run % 2

/-- A code point that has another lower case lies in a run. -/
theorem lowerByRun_cases (n : Nat) :
    lowerByRun n = n ∨ ∃ run ∈ lowerRuns, IsImage run (lowerByRun n) := by
  unfold lowerByRun
  split
  · next run hfound =>
    right
    have hrun := List.mem_of_find?_eq_some hfound
    have hn := List.find?_some hfound
    simp only [Bool.and_eq_true, decide_eq_true_eq, beq_iff_eq] at hn
    obtain ⟨⟨hlow, hhigh⟩, hstep⟩ := hn
    have hsound := (hasSoundImage run hrun).ascii
    -- The distance is the same all along the run, so the bounds of the run become those of the
    -- image.
    refine ⟨run, hrun, ?_, ?_, ?_⟩
    · unfold imageLow
      omega
    · unfold imageHigh
      omega
    · unfold imageLow imageHigh at hsound
      unfold imageLow
      rintro (htwo | hone)
      · rw [htwo] at hstep
        omega
      · obtain rfl : n = run.1 := by omega
        rfl
  · exact .inl rfl

/-- Runs take nothing that a run is mapped to. -/
theorem IsImage.lowerByRun_eq {run : Run} {m : Nat} (hrun : run ∈ lowerRuns) (h : IsImage run m) :
    lowerByRun m = m := by
  unfold lowerByRun
  split
  · next other hfound =>
    exfalso
    have hm := List.find?_some hfound
    have hmisses := List.all_eq_true.mp (List.all_eq_true.mp image_misses run hrun) other
      (List.mem_of_find?_eq_some hfound)
    unfold misses at hmisses
    simp only [Bool.and_eq_true, Bool.or_eq_true, decide_eq_true_eq, beq_iff_eq, Nat.blt_eq,
      Nat.beq_eq] at hm hmisses
    obtain ⟨⟨hlow, hhigh⟩, hstep⟩ := hm
    obtain ⟨hl, hh, hparity⟩ := h
    rcases hmisses with (hbelow | habove) | ⟨⟨hgaps, htwo⟩, hodd⟩
    · omega
    · omega
    · -- the other run has gaps, and what is mapped has the parity of the gaps
      have := hparity hgaps
      rw [htwo] at hstep
      omega
  · rfl

/-- What stands in a lower case is in lower case; what is in ASCII and no letter stood there before.
-/
structure ComesFrom (s : List Char) (d : Char) : Prop where
  lowered : IsLowered d
  origin : d ∈ s ∨ d.isAlpha = true ∨ 128 ≤ d.toNat

/-- What a run is mapped to is in lower case, and it is a letter or not in ASCII. -/
theorem IsImage.isLowered {run : Run} {m : Nat} (hrun : run ∈ lowerRuns) (h : IsImage run m) :
    IsLowered (Char.ofNat m) ∧ ((Char.ofNat m).isAlpha = true ∨ 128 ≤ (Char.ofNat m).toNat) := by
  obtain ⟨hascii, hdotted, hvalid⟩ := hasSoundImage run hrun
  have hsame := h.lowerByRun_eq hrun
  obtain ⟨hlow, hhigh, -⟩ := h
  -- A code point of the image is valid, so the character has it as its number.
  have hm : (Char.ofNat m).toNat = m := by
    have hchar : m.isValidChar := by
      show m < 0xD800 ∨ 0xDFFF < m ∧ m < 0x110000
      omega
    unfold Char.ofNat
    rw [dif_pos hchar]
    rfl
  rcases hascii with hlarge | ⟨hl, hh⟩
  · -- the capital sigma lies in a run, but the image lies in none
    have hsigma : m ≠ 0x3A3 := by
      rintro rfl
      exact absurd hsame (by decide +kernel)
    refine ⟨⟨by rwa [hm], ?_⟩, .inr (by omega)⟩
    unfold lowerChar
    rw [hm, if_neg (by omega), if_neg (by simp; omega), hsame]
  · obtain rfl : m = 107 := by omega
    exact ⟨by decide +kernel, .inl (by decide +kernel)⟩

/-- What stands in the lower case of one character comes from it. -/
theorem comesFrom_lowerBetween (hd : d ∈ lowerBetween before c after) : ComesFrom [c] d := by
  unfold lowerBetween at hd
  split at hd
  · -- either form of the small sigma
    have hforms : ∀ b : Bool, ComesFrom [c] (Char.ofNat (if b then 0x3C2 else 0x3C3)) := by
      rintro (_ | _)
      · exact ⟨by decide +kernel, .inr (.inr (by decide +kernel))⟩
      · exact ⟨by decide +kernel, .inr (.inr (by decide +kernel))⟩
    obtain rfl := List.mem_singleton.mp hd
    exact hforms _
  · next hsigma =>
    unfold lowerChar at hd
    split at hd
    · next hascii =>
      obtain rfl := List.mem_singleton.mp hd
      -- An ASCII character stays as it is, or is a capital letter.
      by_cases hc : c.toLower = c
      · rw [hc]
        refine ⟨⟨by simpa using hsigma, ?_⟩, .inl (by simp)⟩
        unfold lowerChar
        rw [if_pos hascii, hc]
      · have hsmall : ∀ n < 26, IsLowered (capital n).toLower ∧
            (capital n).toLower.isAlpha = true := by decide +kernel
        obtain ⟨n, hn, rfl⟩ := exists_capital hc
        obtain ⟨hlowered, halpha⟩ := hsmall n hn
        exact ⟨hlowered, .inr (.inl halpha)⟩
    · split at hd
      · -- an i, and a dot above it
        obtain rfl | hdot := List.mem_cons.mp hd
        · exact ⟨by decide +kernel, .inr (.inl (by decide))⟩
        · obtain rfl := List.mem_singleton.mp hdot
          exact ⟨by decide +kernel, .inr (.inr (by decide +kernel))⟩
      · next hascii hdotted =>
        obtain rfl := List.mem_singleton.mp hd
        -- Any other character stays, or lies in a run of the table.
        rcases lowerByRun_cases c.toNat with hsame | ⟨run, hrun, himage⟩
        · rw [hsame, Char.ofNat_toNat]
          refine ⟨⟨by simpa using hsigma, ?_⟩, .inl (by simp)⟩
          unfold lowerChar
          rw [if_neg hascii, if_neg hdotted, hsame, Char.ofNat_toNat]
        · obtain ⟨hlowered, hkind⟩ := himage.isLowered hrun
          exact ⟨hlowered, .inr hkind⟩

/-- What stands in the lower case of a text comes from the text. -/
theorem mem_lower (hd : d ∈ lower s) : ComesFrom s d := by
  rw [lower_eq] at hd
  -- the text before matters for the sigma only
  have hall : ∀ before, d ∈ lowerAfter before s → ComesFrom s d := by
    clear hd
    induction s with
    | nil => exact fun _ hd => absurd hd List.not_mem_nil
    | cons c s ih =>
      intro before hd
      rcases List.mem_append.mp hd with hd | hd
      · obtain ⟨hlowered, horigin⟩ := comesFrom_lowerBetween hd
        refine ⟨hlowered, horigin.imp_left fun hc => ?_⟩
        obtain rfl := List.mem_singleton.mp hc
        exact List.mem_cons_self
      · obtain ⟨hlowered, horigin⟩ := ih _ hd
        exact ⟨hlowered, horigin.imp_left (List.mem_cons_of_mem c)⟩
  exact hall [] hd

/-- No character is without a lower case. -/
theorem lowerBetween_ne_nil (before : List Char) (c : Char) (after : List Char) :
    lowerBetween before c after ≠ [] := by
  unfold lowerBetween lowerChar
  split
  · exact List.cons_ne_nil _ _
  · split
    · exact List.cons_ne_nil _ _
    · split <;> exact List.cons_ne_nil _ _

/-- Only the empty text has an empty lower case. -/
theorem lower_eq_nil_iff : lower s = [] ↔ s = [] := by
  rw [lower_eq]
  cases s with
  | nil => rfl
  | cons c s => simp [lowerAfter, lowerBetween_ne_nil]

/-- A text in lower case stays as it is. -/
theorem lower_lower (s : List Char) : lower (lower s) = lower s :=
  lower_eq_self fun _ hd => (mem_lower hd).lowered

end GuidedTour.Text
