import GuidedTour.Text.Lower
import Mathlib.Data.List.Infix

namespace GuidedTour.Text

/-!
# Words in a text in lower case

Only the capital sigma has a lower case that depends on its neighbours. A word in which no small
sigma occurs is therefore found in the lower case of a whole text wherever it is found in the lower
case of a part, although the part can end, or begin, in the middle of a word.

* `unfinal` — the sigma that ends a word, as one that does not;
* `lowerAlone` — the lower case of a character whatever stands around it;
* `map_unfinal_lower` — a text in lower case, sigmas taken for one, character by character;
* `IsSigmaFree.infix_lower_mono`, `IsSigmaFree.prefix_lower_mono` — words of a part are words of the
  whole.
-/

variable {w u s t : List Char}

/-- The sigma that ends a word becomes the one that does not. -/
def unfinal (c : Char) : Char := if c = 'ς' then 'σ' else c

/-- The lower case of a character whatever stands around it. -/
def lowerAlone (c : Char) : List Char := (lowerBetween [] c []).map unfinal

/-- Apart from the form of a sigma, a character has one lower case. -/
theorem map_unfinal_lowerBetween (before : List Char) (c : Char) (after : List Char) :
    (lowerBetween before c after).map unfinal = lowerAlone c := by
  rw [lowerAlone, lowerBetween, lowerBetween]
  split
  · split <;> rfl
  · rfl

theorem map_unfinal_lowerFrom (before done s : List Char) :
    (lowerFrom before done s).map unfinal = done.reverse.map unfinal ++ s.flatMap lowerAlone := by
  induction s generalizing before done with
  | nil => simp [lowerFrom]
  | cons c s ih =>
    rw [lowerFrom, ih, List.reverse_append, List.reverse_reverse, List.map_append,
      map_unfinal_lowerBetween, List.append_assoc, List.flatMap_cons]

/-- Apart from the form of a sigma, a text has the lower cases of its characters. -/
theorem map_unfinal_lower (s : List Char) : (lower s).map unfinal = s.flatMap lowerAlone :=
  map_unfinal_lowerFrom [] [] s

/-- A word in which no small sigma occurs. -/
def IsSigmaFree (w : List Char) : Prop := ∀ c ∈ w, c ≠ 'σ' ∧ c ≠ 'ς'

instance IsSigmaFree.decidable (w : List Char) : Decidable (IsSigmaFree w) :=
  List.decidableBAll _ w

namespace IsSigmaFree

/-- A word without a sigma has no form to change. -/
theorem map_unfinal (h : IsSigmaFree w) : w.map unfinal = w :=
  (List.map_congr_left fun c hc => if_neg (h c hc).2).trans (List.map_id w)

/-- No other word becomes this one when sigmas are taken for one. -/
theorem eq_of_eq_map_unfinal (h : IsSigmaFree w) (hu : w = u.map unfinal) : u = w := by
  have hsame : u.map unfinal = u := by
    refine (List.map_congr_left fun c hc => if_neg fun hfinal => ?_).trans (List.map_id u)
    have hmem : unfinal c ∈ w := hu ▸ List.mem_map_of_mem hc
    exact (h _ hmem).1 (if_pos hfinal)
  rw [hu, hsame]

/-- A word without a sigma is looked for in a text character by character. -/
theorem infix_lower_iff (h : IsSigmaFree w) : w <:+: lower s ↔ w <:+: s.flatMap lowerAlone := by
  rw [← map_unfinal_lower, List.infix_map_iff]
  constructor
  · exact fun hw => ⟨w, hw, h.map_unfinal.symm⟩
  · rintro ⟨u, hu, hmap⟩
    exact h.eq_of_eq_map_unfinal hmap ▸ hu

/-- A word without a sigma is looked for at the start of a text character by character. -/
theorem prefix_lower_iff (h : IsSigmaFree w) : w <+: lower s ↔ w <+: s.flatMap lowerAlone := by
  rw [← map_unfinal_lower, List.prefix_map_iff]
  constructor
  · exact fun hw => ⟨w, hw, h.map_unfinal.symm⟩
  · rintro ⟨u, hu, hmap⟩
    exact h.eq_of_eq_map_unfinal hmap ▸ hu

/-- What occurs in the lower case of a part of a text occurs in that of the whole. -/
theorem infix_lower_mono (h : IsSigmaFree w) (hpart : s <:+: t) (hw : w <:+: lower s) :
    w <:+: lower t :=
  h.infix_lower_iff.mpr ((h.infix_lower_iff.mp hw).trans (hpart.flatMap lowerAlone))

/-- What the lower case of the start of a text begins with, that of the whole begins with. -/
theorem prefix_lower_mono (h : IsSigmaFree w) (hstart : s <+: t) (hw : w <+: lower s) :
    w <+: lower t :=
  h.prefix_lower_iff.mpr ((h.prefix_lower_iff.mp hw).trans (hstart.flatMap lowerAlone))

end IsSigmaFree

end GuidedTour.Text
