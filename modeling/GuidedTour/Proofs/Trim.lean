import GuidedTour.Text.Basic
import Mathlib.Data.List.DropRight

namespace GuidedTour.Text

/-!
# Blanks at the ends of a text

`trim` takes off the blanks at both ends, all of them and nothing else.

* `IsTrimmed` — a text that neither begins nor ends with a blank;
* `exists_trim` — a text is its trimmed text with blanks around it;
* `trim_between` — blanks around a trimmed text come off again;
* `trimStart_mono`, `trimEnd_mono`, `trim_mono` — what is left of the start of a text is the start of
  what is left of the whole.
-/

/-- A text that neither begins nor ends with a blank. -/
structure IsTrimmed (s : List Char) : Prop where
  first : ∀ c ∈ s.head?, isBlank c = false
  last : ∀ c ∈ s.getLast?, isBlank c = false

variable {left core right s t : List Char}

/-- What is dropped from the start of a text ends where the rest begins. -/
theorem dropWhile_append_eq {p : Char → Bool} (hleft : ∀ c ∈ left, p c = true)
    (hrest : ∀ c ∈ s.head?, p c = false) : (left ++ s).dropWhile p = s := by
  rw [List.dropWhile_append_of_pos hleft]
  cases s with
  | nil => rfl
  | cons c s => simp [hrest c rfl]

/-- What is left begins with something that is not dropped. -/
theorem head?_dropWhile_eq_false {α : Type} {p : α → Bool} {l : List α} :
    ∀ x ∈ (l.dropWhile p).head?, p x = false := by
  intro x hx
  have hfirst := List.head?_dropWhile_not p l
  rwa [Option.mem_def.mp hx] at hfirst

/-- What is left ends with something that is not dropped. -/
theorem getLast?_rdropWhile_eq_false {α : Type} {p : α → Bool} {l : List α} :
    ∀ x ∈ (l.rdropWhile p).getLast?, p x = false := by
  rw [List.rdropWhile, List.getLast?_reverse]
  exact head?_dropWhile_eq_false

/-- What is left of a list once its end is dropped: the list but for such an end, and it has none. -/
theorem eq_rdropWhile_iff {α : Type} {p : α → Bool} {l kept : List α} :
    kept = l.rdropWhile p ↔
      ∃ cut, l = kept ++ cut ∧ (∀ x ∈ cut, p x = true) ∧ ∀ x ∈ kept.getLast?, p x = false := by
  constructor
  · rintro rfl
    exact ⟨l.rtakeWhile p, List.rdropWhile_append_rtakeWhile.symm,
      fun x => List.mem_rtakeWhile_imp, getLast?_rdropWhile_eq_false⟩
  · rintro ⟨cut, rfl, hcut, hlast⟩
    -- From its end, the list is dropped until the last of what is kept.
    have hstart : (cut.reverse ++ kept.reverse).dropWhile p = kept.reverse := by
      rw [List.dropWhile_append_of_pos (by simpa using hcut)]
      cases hkept : kept.reverse with
      | nil => rfl
      | cons c rest =>
        have hc : p c = false := hlast c (by rw [← List.head?_reverse, hkept]; rfl)
        simp [hc]
    rw [List.rdropWhile, List.reverse_append, hstart, List.reverse_reverse]

/-- A text is its trimmed text with blanks around it. -/
theorem exists_trim (s : List Char) :
    ∃ left right, s = left ++ trim s ++ right ∧ (∀ c ∈ left, isBlank c = true) ∧
      ∀ c ∈ right, isBlank c = true := by
  refine ⟨s.takeWhile isBlank, (trimStart s).rtakeWhile isBlank, ?_,
    fun c => List.mem_takeWhile_imp, fun c => List.mem_rtakeWhile_imp⟩
  have hend : trim s ++ (trimStart s).rtakeWhile isBlank = trimStart s :=
    List.rdropWhile_append_rtakeWhile
  rw [List.append_assoc, hend, trimStart, List.takeWhile_append_dropWhile]

/-- What is trimmed ends with no blank. -/
theorem getLast?_trimEnd (s : List Char) : ∀ c ∈ (trimEnd s).getLast?, isBlank c = false :=
  getLast?_rdropWhile_eq_false

/-- A trimmed text has no blank at either end. -/
theorem isTrimmed_trim (s : List Char) : IsTrimmed (trim s) where
  first := by
    intro c hc
    -- A trimmed text that is not empty begins where the blanks at the start end.
    obtain ⟨blanks, hblanks⟩ : trim s <+: trimStart s := List.rdropWhile_prefix isBlank _
    have hhead : (trimStart s).head? = some c := by
      rw [← hblanks, List.head?_append, Option.mem_def.mp hc, Option.some_or]
    exact head?_dropWhile_eq_false c hhead
  last := getLast?_trimEnd (trimStart s)

/-- The last blanks are dropped, and nothing before them. -/
theorem trimEnd_append_blanks (hright : ∀ c ∈ right, isBlank c = true)
    (hlast : ∀ c ∈ core.getLast?, isBlank c = false) : trimEnd (core ++ right) = core := by
  rw [trimEnd, List.reverse_append, dropWhile_append_eq (fun c hc => hright c (by simpa using hc))
    (by simpa using hlast), List.reverse_reverse]

/-- Blanks around a trimmed text come off again. -/
theorem trim_between (hleft : ∀ c ∈ left, isBlank c = true) (hcore : IsTrimmed core)
    (hright : ∀ c ∈ right, isBlank c = true) : trim (left ++ core ++ right) = core := by
  rw [trim, trimStart, List.append_assoc]
  cases core with
  | nil =>
    have hall : ∀ c ∈ left ++ ([] ++ right), isBlank c = true := by
      simpa [or_imp, forall_and] using ⟨hleft, hright⟩
    rw [List.dropWhile_eq_nil_iff.mpr hall]
    rfl
  | cons c core =>
    have hstart : (left ++ (c :: core ++ right)).dropWhile isBlank = c :: core ++ right :=
      dropWhile_append_eq hleft hcore.first
    rw [hstart, trimEnd_append_blanks hright hcore.last]

/-- Blanks at the end of a text come off with those that are there. -/
theorem trim_append_blanks (s : List Char) (hright : ∀ c ∈ right, isBlank c = true) :
    trim (s ++ right) = trim s := by
  obtain ⟨before, after, hs, hbefore, hafter⟩ := exists_trim s
  have hblank : ∀ c ∈ after ++ right, isBlank c = true := fun c hc =>
    (List.mem_append.mp hc).elim (hafter c) (hright c)
  calc trim (s ++ right) = trim (before ++ trim s ++ (after ++ right)) := by
        conv_lhs => rw [hs]
        rw [List.append_assoc (before ++ trim s)]
    _ = trim s := trim_between hbefore (isTrimmed_trim s) hblank

/-! ### The end of a text, and its start -/

theorem trimEnd_isPrefix (s : List Char) : trimEnd s <+: s := List.rdropWhile_prefix isBlank s

theorem trim_isInfix (s : List Char) : trim s <:+: s :=
  (trimEnd_isPrefix _).isInfix.trans (List.dropWhile_suffix _).isInfix

/-- Nothing is left of blanks. -/
theorem trimEnd_eq_nil_iff : trimEnd s = [] ↔ allBlank s = true := by
  rw [trimEnd, List.reverse_eq_nil_iff, List.dropWhile_eq_nil_iff, allBlank, List.all_eq_true]
  simp

/-- A text that ends with no blank stays. -/
theorem trimEnd_eq_self (h : ∀ c ∈ s.getLast?, isBlank c = false) : trimEnd s = s := by
  have hcut : trimEnd (s ++ []) = s := trimEnd_append_blanks (by simp) h
  rwa [List.append_nil] at hcut

/-- The last blanks of two parts are those of the second one, unless that is blank. -/
theorem trimEnd_append (s t : List Char) :
    trimEnd (s ++ t) = if trimEnd t = [] then trimEnd s else s ++ trimEnd t := by
  simp only [trimEnd, List.reverse_append, List.dropWhile_append, List.isEmpty_iff,
    List.reverse_eq_nil_iff]
  split <;> simp

/-- A start of a text stays one when the first blanks are dropped. -/
theorem trimStart_mono (h : s <+: t) : trimStart s <+: trimStart t := by
  obtain ⟨rest, rfl⟩ := h
  rw [trimStart, trimStart, List.dropWhile_append]
  split
  · next hnil => rw [List.isEmpty_iff.mp hnil]; exact List.nil_prefix
  · exact List.prefix_append _ _

/-- A start of a text stays one when the last blanks are dropped. -/
theorem trimEnd_mono (h : s <+: t) : trimEnd s <+: trimEnd t := by
  obtain ⟨rest, rfl⟩ := h
  rw [trimEnd_append]
  split
  · exact List.prefix_rfl
  · exact (trimEnd_isPrefix s).trans (List.prefix_append s _)

/-- If a text is a start of another one behind the first blanks of both, it is so when both are
trimmed. -/
theorem trim_mono (h : trimStart s <+: trimStart t) : trim s <+: trim t := trimEnd_mono h

end GuidedTour.Text
