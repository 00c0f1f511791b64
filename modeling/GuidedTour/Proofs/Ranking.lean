import GuidedTour.Workspace.Ranking
import Mathlib.Data.List.Sort
import Mathlib.Data.List.Sublists

namespace GuidedTour

/-!
# Falling order

`fallingBy` sorts a list by a score, the greatest first, and leaves items of one score in their
order.

* `IsFalling` — a list in falling order of a score, made of the items of another;
* `fallingBy_isFalling` — `fallingBy` puts a list into that order;
* `IsFalling.le_of_mem_take` — the first items of such a list are the best;
* `IsFalling.unique` — there is only one such list, so that any stable sorting comes to it;
* `fallingBy_eq_insertionSort` — inserting one item after another does.
-/

variable {α : Type} {score : α → Int} {items ranked other : List α}

/-- A list made of the items of another, in falling order of a score. -/
structure IsFalling (score : α → Int) (items ranked : List α) : Prop where
  /-- No item is lost or doubled. -/
  perm : ranked.Perm items
  /-- No item stands before one of a higher score. -/
  falling : ranked.Pairwise fun a b => score b ≤ score a
  /-- The items of one score stand as they stood. -/
  stable : ∀ n, ranked.filter (score · = n) = items.filter (score · = n)

/-- The scores beside the items only save computing them again. -/
theorem fallingBy_eq_mergeSort (score : α → Int) (items : List α) :
    fallingBy score items = items.mergeSort fun a b => score b ≤ score a := by
  have hscores : ∀ a ∈ items.map fun a => (score a, a), ∀ b ∈ items.map fun a => (score a, a),
      decide (b.1 ≤ a.1) = decide (score b.2 ≤ score a.2) := by
    simp
  rw [fallingBy, List.map_mergeSort (s := fun a b => decide (score b ≤ score a)) hscores,
    List.map_map]
  simp [Function.comp_def]

/-- Items of one score are in order already, wherever they stand. -/
theorem pairwise_filter_score (score : α → Int) (items : List α) (n : Int) :
    (items.filter (score · = n)).Pairwise fun a b => score b ≤ score a := by
  refine List.pairwise_of_forall_mem_list fun a ha b hb => ?_
  have hscore : score a = n := of_decide_eq_true (List.mem_filter.mp ha).2
  have hscore' : score b = n := of_decide_eq_true (List.mem_filter.mp hb).2
  exact (hscore'.trans hscore.symm).le

/-- If sorting keeps the items of a score as a sublist, it keeps them as they are, for there are no
more of them afterwards than before. -/
theorem filter_score_eq_of_sublist {n : Int} (hperm : ranked.Perm items)
    (hsublist : (items.filter (score · = n)).Sublist ranked) :
    ranked.filter (score · = n) = items.filter (score · = n) := by
  have hkept := hsublist.filter (score · = n)
  simp only [List.filter_filter, Bool.and_self] at hkept
  exact (hkept.eq_of_length (hperm.filter _).length_eq.symm).symm

/-- Sorting by the score is stable. -/
theorem fallingBy_isFalling (score : α → Int) (items : List α) :
    IsFalling score items (fallingBy score items) := by
  have htrans : ∀ a b c : α, decide (score b ≤ score a) → decide (score c ≤ score b) →
      decide (score c ≤ score a) := by
    simp only [decide_eq_true_eq]
    omega
  have htotal : ∀ a b : α, decide (score b ≤ score a) || decide (score a ≤ score b) := by
    simp only [Bool.or_eq_true, decide_eq_true_eq]
    omega
  rw [fallingBy_eq_mergeSort]
  have hperm := List.mergeSort_perm items fun a b => decide (score b ≤ score a)
  refine ⟨hperm, ?_, fun n => ?_⟩
  · simpa using List.pairwise_mergeSort htrans htotal items
  · have hordered : (items.filter (score · = n)).Pairwise fun a b =>
        decide (score b ≤ score a) := by
      simpa using pairwise_filter_score score items n
    exact filter_score_eq_of_sublist hperm
      (List.sublist_mergeSort htrans htotal hordered List.filter_sublist)

/-- No item behind the first ones has a higher score than one of them. -/
theorem IsFalling.le_of_mem_take (h : IsFalling score items ranked) (n : Nat) :
    ∀ a ∈ ranked.take n, ∀ b ∈ ranked.drop n, score b ≤ score a := by
  have hfalling := h.falling
  rw [← List.take_append_drop n ranked] at hfalling
  exact (List.pairwise_append.mp hfalling).2.2

/-! ### There is only one falling order -/

/-- Two lists in falling order that hold the same items of each score are the same. -/
theorem eq_of_filter_score_eq (hranked : ranked.Pairwise fun a b => score b ≤ score a)
    (hother : other.Pairwise fun a b => score b ≤ score a)
    (h : ∀ n, ranked.filter (score · = n) = other.filter (score · = n)) : ranked = other := by
  have hmem : ∀ a, a ∈ ranked ↔ a ∈ other := fun a => by
    simpa using congrArg (a ∈ ·) (h (score a))
  induction ranked generalizing other with
  | nil => exact (List.eq_nil_iff_forall_not_mem.mpr fun a ha => by simpa using (hmem a).mpr ha).symm
  | cons a rest ih =>
    cases other with
    | nil => simpa using (hmem a).mp List.mem_cons_self
    | cons b others =>
      -- Both first items have the highest score, and so each is the first item of that score.
      have hscore : score a = score b := by
        have hle : score a ≤ score b := by
          rcases List.mem_cons.mp ((hmem a).mp List.mem_cons_self) with rfl | ha
          · exact le_rfl
          · exact List.rel_of_pairwise_cons hother ha
        have hge : score b ≤ score a := by
          rcases List.mem_cons.mp ((hmem b).mpr List.mem_cons_self) with rfl | hb
          · exact le_rfl
          · exact List.rel_of_pairwise_cons hranked hb
        exact le_antisymm hle hge
      have hfirst := h (score a)
      simp only [List.filter_cons, hscore, decide_true, if_true] at hfirst
      obtain rfl : a = b := (List.cons.inj hfirst).1
      have hrest : ∀ n, rest.filter (score · = n) = others.filter (score · = n) := fun n => by
        have hn := h n
        by_cases ha : score a = n
        · simpa [List.filter_cons, ha] using hn
        · simpa [List.filter_cons, ha] using hn
      rw [ih hranked.of_cons hother.of_cons hrest fun c => by
        simpa using congrArg (c ∈ ·) (hrest (score c))]

/-- The falling order of some items is determined: ties included, there is no choice. -/
theorem IsFalling.unique (h : IsFalling score items ranked) (h' : IsFalling score items other) :
    ranked = other :=
  eq_of_filter_score_eq h.falling h'.falling fun n => (h.stable n).trans (h'.stable n).symm

/-- Inserting one item after another comes to the same order. -/
theorem insertionSort_isFalling (score : α → Int) (items : List α) :
    IsFalling score items (items.insertionSort fun a b => score b ≤ score a) := by
  have htotal : Std.Total fun a b : α => score b ≤ score a := ⟨fun a b => le_total _ _⟩
  have htrans : IsTrans α fun a b => score b ≤ score a := ⟨fun a b c hab hbc => hbc.trans hab⟩
  have hperm := List.perm_insertionSort (fun a b => score b ≤ score a) items
  refine ⟨hperm, List.pairwise_insertionSort _ items, fun n => ?_⟩
  exact filter_score_eq_of_sublist hperm
    (List.sublist_insertionSort (pairwise_filter_score score items n) List.filter_sublist)

/-- The order as a structural recursion, which evaluates on lists that are written out. -/
theorem fallingBy_eq_insertionSort (score : α → Int) (items : List α) :
    fallingBy score items = items.insertionSort fun a b => score b ≤ score a :=
  (fallingBy_isFalling score items).unique (insertionSort_isFalling score items)

end GuidedTour
