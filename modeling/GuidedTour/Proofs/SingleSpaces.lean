import GuidedTour.Proofs.Lines
import GuidedTour.Proofs.Trim
import Mathlib.Data.List.Chain

namespace GuidedTour.Text

/-!
# Texts with single spaces

The words of a text, joined by spaces, are the text with a single space in place of each run of
blanks.

* `singleSpaced` — a text with single spaces;
* `joinWith_words` — it is the words of the text, joined;
* `spacedFrom_append_solid` — a character that is no blank parts a text in two, and each part has its
  own spaces;
* `HasSingleSpaces` — a text whose blanks are single spaces, as `singleSpaced s` is.
-/

/-- The text with a single space in place of each run of blanks, but with none at its start if what
stands before it is a blank. -/
def spacedFrom (afterBlank : Bool) : List Char → List Char
  | [] => []
  | c :: s =>
    if isBlank c then (if afterBlank then [] else [' ']) ++ spacedFrom true s
    else c :: spacedFrom false s

/-- The text with a single space in place of each run of blanks. -/
def singleSpaced (s : List Char) : List Char := spacedFrom false s

/-- A text without blanks. -/
def IsSolid (s : List Char) : Prop := ∀ c ∈ s, isBlank c = false

instance IsSolid.decidable (s : List Char) : Decidable (IsSolid s) := List.decidableBAll _ s

variable {a b s w word : List Char} {c : Char} {afterBlank : Bool}

/-! ### Words with spaces between them -/

/-- What does not end with a blank does not do so without its first character. -/
theorem solidEnd_of_cons (h : ∀ d ∈ (c :: s).getLast?, isBlank d = false) :
    ∀ d ∈ s.getLast?, isBlank d = false := by
  intro d hd
  refine h d ?_
  rw [List.getLast?_cons, Option.mem_def.mp hd]
  rfl

/-- A text that ends with no blank goes on behind its blanks. -/
theorem ne_nil_of_isBlank (h : ∀ d ∈ (c :: s).getLast?, isBlank d = false)
    (hc : isBlank c = true) : s ≠ [] := by
  rintro rfl
  rw [h c rfl] at hc
  cases hc

/-- Where there is something to read, there are words. -/
theorem wordsFrom_ne_nil (hne : word ≠ [] ∨ s ≠ [])
    (hlast : ∀ c ∈ s.getLast?, isBlank c = false) : wordsFrom word s ≠ [] := by
  induction s generalizing word with
  | nil =>
    have hword : word ≠ [] := hne.resolve_right (· rfl)
    simpa [wordsFrom] using hword
  | cons c s ih =>
    rw [wordsFrom]
    split
    · next hc =>
      split
      · exact ih (.inr (ne_nil_of_isBlank hlast hc)) (solidEnd_of_cons hlast)
      · exact List.cons_ne_nil _ _
    · exact ih (.inl (List.cons_ne_nil c word)) (solidEnd_of_cons hlast)

/-- `word` is what is read of a word so far, backwards; where it is empty, blanks are passed over. -/
theorem joinWith_wordsFrom (hlast : ∀ c ∈ s.getLast?, isBlank c = false) (word : List Char) :
    joinWith [' '] (wordsFrom word s) = word.reverse ++ spacedFrom word.isEmpty s := by
  induction s generalizing word with
  | nil => cases word <;> simp [wordsFrom, spacedFrom, joinWith]
  | cons c s ih =>
    have hrest := solidEnd_of_cons hlast
    rw [wordsFrom, spacedFrom]
    cases hc : isBlank c with
    | false =>
      rw [if_neg (by simp), if_neg (by simp), ih hrest, List.reverse_cons, List.append_assoc]
      rfl
    | true =>
      rw [if_pos rfl, if_pos rfl]
      cases word with
      | nil => exact ih hrest []
      | cons d word =>
        -- The text goes on after the blank, so there is a word to be joined.
        have hwords : wordsFrom [] s ≠ [] :=
          wordsFrom_ne_nil (.inr (ne_nil_of_isBlank hlast hc)) hrest
        rw [if_neg (by simp), joinWith_cons _ _ hwords, ih hrest, List.append_assoc]
        rfl

/-- The words of a text, joined by spaces, are the text with single spaces. -/
theorem joinWith_words (h : IsTrimmed s) : joinWith [' '] (words s) = singleSpaced s := by
  rw [words, joinWith_wordsFrom h.last]
  cases s with
  | nil => rfl
  | cons c s =>
    simp [singleSpaced, spacedFrom, h.first c rfl]

/-! ### Parts of a text -/

/-- A text may be taken apart at a character that is no blank. -/
theorem spacedFrom_append_solid (hc : isBlank c = false) (b : List Char) :
    spacedFrom afterBlank (a ++ c :: b) = spacedFrom afterBlank a ++ c :: spacedFrom false b := by
  induction a generalizing afterBlank with
  | nil => simp [spacedFrom, hc]
  | cons d a ih => by_cases hd : isBlank d = true <;> simp [spacedFrom, hd, ih]

/-- A word in front stays as it is. -/
theorem singleSpaced_word_append (hw : IsSolid w) (b : List Char) :
    singleSpaced (w ++ b) = w ++ singleSpaced b := by
  induction w with
  | nil => rfl
  | cons c w ih =>
    obtain ⟨hc, hw⟩ := List.forall_mem_cons.mp hw
    rw [singleSpaced, List.cons_append, spacedFrom, if_neg (by simp [hc]), ← singleSpaced, ih hw,
      List.cons_append]

theorem singleSpaced_append_solid (hc : isBlank c = false) (a b : List Char) :
    singleSpaced (a ++ c :: b) = singleSpaced a ++ c :: singleSpaced b :=
  spacedFrom_append_solid hc b

/-- A word parts a text in two. -/
theorem singleSpaced_append_word (hw : IsSolid w) (hne : w ≠ [])
    (a b : List Char) : singleSpaced (a ++ (w ++ b)) = singleSpaced a ++ (w ++ singleSpaced b) := by
  obtain ⟨c, w, rfl⟩ := List.exists_cons_of_ne_nil hne
  obtain ⟨hc, hw⟩ := List.forall_mem_cons.mp hw
  rw [List.cons_append, singleSpaced_append_solid hc, singleSpaced_word_append hw,
    List.cons_append]

/-- Nothing comes in but spaces. -/
theorem mem_or_eq_of_mem_spacedFrom (hc : c ∈ spacedFrom afterBlank s) : c ∈ s ∨ c = ' ' := by
  induction s generalizing afterBlank with
  | nil => exact absurd hc List.not_mem_nil
  | cons d s ih =>
    rw [spacedFrom] at hc
    split at hc
    · rcases List.mem_append.mp hc with hspace | hc
      · right
        split at hspace
        · exact absurd hspace List.not_mem_nil
        · exact List.mem_singleton.mp hspace
      · exact (ih hc).imp_left (List.mem_cons_of_mem d)
    · rcases List.mem_cons.mp hc with rfl | hc
      · exact .inl List.mem_cons_self
      · exact (ih hc).imp_left (List.mem_cons_of_mem d)

/-- Only the empty text has nothing left. -/
theorem singleSpaced_eq_nil_iff : singleSpaced s = [] ↔ s = [] := by
  cases s with
  | nil => simp [singleSpaced, spacedFrom]
  | cons c s => by_cases hc : isBlank c = true <;> simp [singleSpaced, spacedFrom, hc]

/-- A text that does not begin with a blank does not do so afterwards. -/
theorem isBlank_of_head?_singleSpaced (h : ∀ c ∈ s.head?, isBlank c = false) :
    ∀ c ∈ (singleSpaced s).head?, isBlank c = false := by
  cases s with
  | nil => exact h
  | cons c s => simp [singleSpaced, spacedFrom, h c rfl]

/-! ### Blanks that are left -/

/-- No blanks but spaces, and no two of them next to one another. -/
structure HasSingleSpaces (s : List Char) : Prop where
  spaces : ∀ c ∈ s, isBlank c = true → c = ' '
  single : s.IsChain fun c d => isBlank c = false ∨ isBlank d = false

/-- A part of a text with single spaces has single spaces. -/
theorem HasSingleSpaces.of_isInfix (h : HasSingleSpaces s) (hw : w <:+: s) : HasSingleSpaces w :=
  ⟨fun c hc => h.spaces c (hw.subset hc), List.IsChain.infix h.single hw⟩

/-- What follows a blank begins with none. -/
theorem isBlank_of_head?_spacedFrom_true : ∀ c ∈ (spacedFrom true s).head?, isBlank c = false := by
  induction s with
  | nil => simp [spacedFrom]
  | cons d s ih => by_cases hd : isBlank d = true <;> simp_all [spacedFrom]

/-- No two blanks are left in a row, and no blank but a space. -/
theorem hasSingleSpaces_spacedFrom (s : List Char) (afterBlank : Bool) :
    HasSingleSpaces (spacedFrom afterBlank s) := by
  induction s generalizing afterBlank with
  | nil => exact ⟨by simp [spacedFrom], .nil⟩
  | cons d s ih =>
    rw [spacedFrom]
    split
    · obtain ⟨hspaces, hsingle⟩ := ih true
      cases afterBlank with
      | true => exact ⟨hspaces, hsingle⟩
      | false =>
        refine ⟨List.forall_mem_cons.mpr ⟨fun _ => rfl, hspaces⟩,
          List.isChain_cons.mpr ⟨?_, hsingle⟩⟩
        -- The space is followed by what comes after a blank, which is no blank.
        exact fun c hc => .inr (isBlank_of_head?_spacedFrom_true c hc)
    · next hd =>
      obtain ⟨hspaces, hsingle⟩ := ih false
      exact ⟨List.forall_mem_cons.mpr ⟨fun hblank => absurd hblank hd, hspaces⟩,
        List.isChain_cons.mpr ⟨fun c _ => .inl (by simpa using hd), hsingle⟩⟩

/-- A text with single spaces has no other blanks. -/
theorem hasSingleSpaces_singleSpaced (s : List Char) : HasSingleSpaces (singleSpaced s) :=
  hasSingleSpaces_spacedFrom s false

end GuidedTour.Text
