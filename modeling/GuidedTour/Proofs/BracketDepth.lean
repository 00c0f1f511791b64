import GuidedTour.Proofs.Brackets

namespace GuidedTour.Answer

/-!
# The depth of the scan

How many arrays are open where the scan for an array stands, and what that says of the array found.

* `outside` — what of a text stands outside strings;
* `Scan.depth_past?` — the depth behind a text is what the text opens outside strings, less what it
  closes there;
* `Scan.one_le_depth` — from the first bracket on an array is open, wherever the scan comes to;
* `array?_eq_some_iff_past?` — the scan ends at the bracket that it meets at depth one;
* `IsShortestBalanced` — the shortest balanced text that begins at the first bracket;
* `array?_sound` — a closing bracket outside strings always has an array to close, and what is found
  is that shortest text.
-/

variable {a p s t w : List Char} {c : Char} {σ τ : Scan}

/-! ### How many arrays are open -/

/-- The characters of a text that stand outside strings, if it is read from a mode on. A quote that
opens a string is one of them. -/
def outside : Mode → List Char → List Char
  | _, [] => []
  | mode, c :: s => if mode = .plain then c :: outside (mode.next c) s else outside (mode.next c) s

theorem outside_cons (mode : Mode) (c : Char) (s : List Char) :
    outside mode (c :: s) = outside mode [c] ++ outside (mode.next c) s := by
  by_cases hplain : mode = .plain <;> simp [outside, hplain]

namespace Scan

/-- One character changes the depth by what it opens or closes outside strings. -/
theorem depth_next? (h : σ.next? c = some τ) :
    τ.depth + (outside σ.mode [c]).count ']' = σ.depth + (outside σ.mode [c]).count '[' := by
  obtain ⟨hmode, rfl, rfl⟩ | ⟨hmode, rfl, hmore, rfl⟩ | ⟨hother, rfl⟩ := next?_cases h
  · simp [outside, hmode]
  · -- One is taken from a depth that is more than one.
    have hback : σ.depth - 1 + 1 = σ.depth := Nat.sub_add_cancel (Nat.le_of_lt hmore)
    simpa [outside, hmode] using hback
  · by_cases hmode : σ.mode = .plain
    · simp [outside, hmode, hother hmode]
    · simp [outside, hmode]

/-- The depth behind a text is what the text opens outside strings, less what it closes there. -/
theorem depth_past? (h : σ.past? w = some τ) :
    τ.depth + (outside σ.mode w).count ']' = σ.depth + (outside σ.mode w).count '[' := by
  induction w generalizing σ with
  | nil =>
    obtain rfl : σ = τ := by simpa using h
    rfl
  | cons c w ih =>
    obtain ⟨ρ, hnext, hpast⟩ := past?_cons_eq_some_iff.mp h
    have hstep := depth_next? hnext
    -- The rest is read on from the mode behind the first character.
    have hrest := ih hpast
    rw [mode_next? hnext] at hrest
    rw [outside_cons, List.count_append, List.count_append]
    omega

/-- The scan stops before the depth comes to nothing. -/
theorem one_le_depth_next? (hdepth : 1 ≤ σ.depth) (h : σ.next? c = some τ) : 1 ≤ τ.depth := by
  obtain ⟨-, -, rfl⟩ | ⟨-, -, hmore, rfl⟩ | ⟨-, rfl⟩ := next?_cases h
  · exact Nat.le_add_left 1 σ.depth
  · exact Nat.le_sub_of_add_le hmore
  · exact hdepth

/-- A scan inside an array stays inside one, for it ends where it would leave the last one. -/
theorem one_le_depth_past? (hdepth : 1 ≤ σ.depth) (h : σ.past? w = some τ) : 1 ≤ τ.depth := by
  induction w generalizing σ with
  | nil =>
    obtain rfl : σ = τ := by simpa using h
    exact hdepth
  | cons c w ih =>
    obtain ⟨ρ, hnext, hpast⟩ := past?_cons_eq_some_iff.mp h
    exact ih (one_le_depth_next? hdepth hnext) hpast

/-- From the first bracket on an array is open, wherever the scan comes to. -/
theorem one_le_depth (hopen : p.head? = some '[') (h : ({} : Scan).past? p = some σ) :
    1 ≤ σ.depth := by
  obtain ⟨w, rfl⟩ := List.head?_eq_some_iff.mp hopen
  have hopened : past? ⟨.plain, 1⟩ w = some σ := h
  exact one_le_depth_past? (Nat.le_refl 1) hopened

end Scan

/-- A balanced text closes as many arrays outside strings as it opens. -/
theorem IsBalanced.count_outside (h : IsBalanced w) :
    (outside .plain w).count ']' = (outside .plain w).count '[' :=
  Nat.add_left_cancel (Scan.depth_past? (h.past?_eq (Nat.le_refl 1)))

/-! ### Where the scan ends -/

/-- What stands before another character of the text from its first bracket on begins with that
bracket. -/
theorem head?_of_fromBracket (hs : fromBracket s = p ++ c :: t) (hc : c ≠ '[') :
    p.head? = some '[' := by
  rcases fromBracket_eq_nil_or s with hnil | hopen
  · simp [hnil] at hs
  · rw [hs] at hopen
    cases p with
    | nil => exact absurd (Option.some.inj hopen) hc
    | cons d p => exact hopen

/-- The scan for an array goes on from where it stands behind a part of the text. -/
theorem array?_eq_closeArray (hs : fromBracket s = p ++ t) (hpast : ({} : Scan).past? p = some σ) :
    array? s = closeArray σ.mode σ.depth p.reverse t := by
  have hscan := Scan.closeArray_append hpast [] t
  rwa [← hs, List.append_nil] at hscan

/-- The scan ends with the closing bracket that it meets outside strings at depth one. -/
theorem array?_eq_some_iff_past? : array? s = some a ↔
    ∃ p t, fromBracket s = p ++ ']' :: t ∧ ({} : Scan).past? p = some { depth := 1 } ∧
      a = p ++ [']'] := by
  constructor
  · intro h
    have hscan : closeArray ({} : Scan).mode ({} : Scan).depth [] (fromBracket s) = some a := h
    -- The scan stops at one character, outside strings and with one array open.
    obtain ⟨p, c, t, σ, hs, hpast, hend, rfl⟩ := Scan.exists_past? hscan
    obtain ⟨hmode, rfl, hlast⟩ := Scan.next?_eq_none_iff.mp hend
    have hdepth := Scan.one_le_depth (head?_of_fromBracket hs (by decide)) hpast
    obtain ⟨mode, depth⟩ := σ
    obtain rfl : mode = .plain := hmode
    obtain rfl : depth = 1 := Nat.le_antisymm hlast hdepth
    exact ⟨p, t, hs, hpast, rfl⟩
  · rintro ⟨p, t, hs, hpast, rfl⟩
    rw [array?_eq_closeArray hs hpast]
    simp [closeArray]

/-- The scan goes past every proper beginning of the array that it finds. -/
theorem exists_past?_of_prefix (h : array? s = some a) (hp : p <+: a) (hproper : p ≠ a) :
    ∃ σ, ({} : Scan).past? p = some σ := by
  obtain ⟨q, t, -, hpast, rfl⟩ := array?_eq_some_iff_past?.mp h
  obtain ⟨r, rfl⟩ := (List.prefix_concat_iff.mp hp).resolve_left hproper
  rw [Scan.past?_append] at hpast
  obtain ⟨σ, hσ, -⟩ := Option.bind_eq_some_iff.mp hpast
  exact ⟨σ, hσ⟩

/-- The array found is found again in itself. -/
theorem array?_self (h : array? s = some a) : array? a = some a := by
  obtain ⟨_, _, -, -, ha⟩ := array?_eq_some_iff.mp h
  exact array?_eq_some_iff.mpr ⟨[], [], by simp, by simp, ha⟩

/-- What is put behind a text does not change the array found in it. -/
theorem array?_extended (h : array? s = some a) (v : List Char) : array? (s ++ v) = some a := by
  obtain ⟨before, after, rfl, hbefore, ha⟩ := array?_eq_some_iff.mp h
  exact array?_eq_some_iff.mpr ⟨before, after ++ v, by simp, hbefore, ha⟩

/-! ### The shortest balanced text -/

/-- A bracketed text is balanced. -/
theorem IsBracketed.isBalanced (h : IsBracketed a) : IsBalanced a := by
  obtain ⟨w, hw, rfl⟩ := h
  exact .brackets hw .nil

/-- A balanced text that begins with a bracket begins with a bracketed part. -/
theorem IsBalanced.exists_isBracketed (h : IsBalanced a) (hopen : a.head? = some '[') :
    ∃ b, b <+: a ∧ IsBracketed b := by
  cases h with
  | nil => cases hopen
  | char hc =>
    obtain rfl := Option.some.inj hopen
    cases hc
  | string => cases Option.some.inj hopen
  | @brackets w s hinside => exact ⟨'[' :: (w ++ [']']), ⟨s, by simp⟩, w, hinside, rfl⟩

/-- The shortest balanced text that begins at the first bracket of a text. A proper beginning of it
opens more arrays outside strings than it closes. -/
structure IsShortestBalanced (s a : List Char) : Prop where
  placed : ∃ before after, s = before ++ (a ++ after) ∧ '[' ∉ before
  opens : a.head? = some '['
  closes : a.getLast? = some ']'
  balanced : IsBalanced a
  shortest : ∀ p, p <+: a → p ≠ [] → p ≠ a →
    ¬IsBalanced p ∧ (outside .plain p).count ']' < (outside .plain p).count '['

/-- What the scan finds is the shortest balanced text from the first bracket. -/
theorem isShortestBalanced_of_array? (h : array? s = some a) : IsShortestBalanced s a := by
  obtain ⟨before, after, hs, hbefore, ha⟩ := array?_eq_some_iff.mp h
  obtain ⟨q, -, -, -, hend⟩ := array?_eq_some_iff_past?.mp h
  refine ⟨⟨before, after, hs, hbefore⟩, ha.head?, by simp [hend], ha.isBalanced, ?_⟩
  intro p hp hne hproper
  obtain ⟨σ, hpast⟩ := exists_past?_of_prefix h hp hproper
  obtain ⟨r, hr⟩ := hp
  have hopen : p.head? = some '[' := by rw [← ha.head?, ← hr, List.head?_append_of_ne_nil p hne]
  -- An array is open behind `p`, so `p` opens one that it does not close.
  have hdepth := Scan.one_le_depth hopen hpast
  have hbrackets : σ.depth + (outside .plain p).count ']' = 0 + (outside .plain p).count '[' :=
    Scan.depth_past? hpast
  have hmore : (outside .plain p).count ']' < (outside .plain p).count '[' := by omega
  exact ⟨fun hbalanced => hmore.ne hbalanced.count_outside, hmore⟩

/-- The shortest balanced text from the first bracket is found. -/
theorem IsShortestBalanced.array?_eq (h : IsShortestBalanced s a) : array? s = some a := by
  obtain ⟨before, after, hs, hbefore⟩ := h.placed
  obtain ⟨b, hb, hbracketed⟩ := h.balanced.exists_isBracketed h.opens
  -- A bracketed part that ended earlier would be a balanced proper beginning.
  have hall : b = a := by
    by_contra hproper
    have hne : b ≠ [] := by
      rintro rfl
      cases hbracketed.head?
    exact (h.shortest b hb hne hproper).1 hbracketed.isBalanced
  exact array?_eq_some_iff.mpr ⟨before, after, hs, hbefore, hall ▸ hbracketed⟩

/-- **The scan is sound.** Wherever it comes to a closing bracket outside strings, an array is open,
so that the depth never falls below zero. What it finds is the shortest balanced text that begins at
the first bracket; that text is found again in itself, and whatever is put behind the text that it
was found in. -/
theorem array?_sound (s : List Char) :
    (∀ p t σ, fromBracket s = p ++ ']' :: t → ({} : Scan).past? p = some σ → σ.mode = .plain →
        array? s = closeArray .plain σ.depth p.reverse (']' :: t) ∧ 1 ≤ σ.depth) ∧
      (∀ a, array? s = some a ↔ IsShortestBalanced s a) ∧
      ∀ a, array? s = some a → array? a = some a ∧ ∀ v, array? (s ++ v) = some a := by
  refine ⟨fun p t σ hs hpast hmode => ⟨?_, ?_⟩, fun a => ?_, fun a h => ?_⟩
  · exact hmode ▸ array?_eq_closeArray hs hpast
  · exact Scan.one_le_depth (head?_of_fromBracket hs (by decide)) hpast
  · exact ⟨isShortestBalanced_of_array?, IsShortestBalanced.array?_eq⟩
  · exact ⟨array?_self h, array?_extended h⟩

/-- Closing brackets before the first opening one, in a string and behind the end, and an escaped
quote in the string. -/
theorem array?_sound_strayBrackets :
    let opened := "[[\"]\\\"]\", 1".toList
    let s := "Steps]: ".toList ++ opened ++ "], 2] and ]]".toList
    let a := opened ++ "], 2]".toList
    fromBracket s = opened ++ ']' :: ", 2] and ]]".toList ∧
      ({} : Scan).past? opened = some { depth := 2 } ∧
      (array? s = closeArray .plain 2 opened.reverse (']' :: ", 2] and ]]".toList) ∧ 1 ≤ 2) ∧
      IsShortestBalanced s a ∧ array? a = some a ∧ array? (s ++ "\"[".toList) = some a := by
  intro opened s a
  have hs : fromBracket s = opened ++ ']' :: ", 2] and ]]".toList := by decide +kernel
  have hpast : ({} : Scan).past? opened = some { depth := 2 } := by decide +kernel
  have hfound : array? s = some a := by decide +kernel
  -- What the statement needs is computed, and what it says is taken from it.
  obtain ⟨hmeets, hfinds, hkeeps⟩ := array?_sound s
  obtain ⟨hscan, hdepth⟩ := hmeets _ _ _ hs hpast rfl
  obtain ⟨hagain, hextended⟩ := hkeeps a hfound
  exact ⟨hs, hpast, ⟨hscan, hdepth⟩, (hfinds a).mp hfound, hagain, hextended _⟩

end GuidedTour.Answer
