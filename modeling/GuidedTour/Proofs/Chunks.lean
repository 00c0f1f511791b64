import GuidedTour.Run.Batch
import Mathlib.Algebra.Order.Floor.Div

namespace GuidedTour

/-!
# Chunks of a list

`chunks size items` cuts a list without losing or moving an item. All chunks but the last have the
size, where a size of zero counts as one.

* `chunks_flatten` — the chunks together are the list;
* `chunks_take_flatten` — the first chunks together are the beginning of the list;
* `length_le_of_mem_chunks`, `length_pos_of_mem_chunks` — how long a chunk is at most and at least;
* `length_of_mem_dropLast_chunks` — how long every chunk but the last is;
* `chunks_length` — how many there are.
-/

variable {α : Type} {size : Nat} {items piece : List α}

/-- The pieces together are the items again. -/
theorem pieces_flatten (size : Nat) (items : List α) : (pieces size items).flatten = items := by
  fun_induction pieces size items with
  | case1 => rfl
  | case2 a rest ih => simp [ih]

/-- The first pieces together are the first items. -/
theorem pieces_take_flatten (size : Nat) (items : List α) (n : Nat) :
    ((pieces size items).take n).flatten = items.take (n * (size + 1)) := by
  fun_induction pieces size items generalizing n with
  | case1 => simp
  | case2 a rest ih =>
    cases n with
    | zero => simp
    | succ n =>
      have hsize : (n + 1) * (size + 1) = n * (size + 1) + size + 1 := Nat.succ_mul n (size + 1)
      rw [List.take_succ_cons, List.flatten_cons, ih, hsize, List.take_succ_cons, List.cons_append,
        Nat.add_comm (n * (size + 1)) size, List.take_add]

/-- A piece is an item with as many of the items behind it as there may be. -/
theorem exists_of_mem_pieces (h : piece ∈ pieces size items) :
    ∃ (a : α) (rest : List α), piece = a :: rest.take size := by
  fun_induction pieces size items with
  | case1 => simp at h
  | case2 a rest ih =>
    rcases List.mem_cons.mp h with rfl | htail
    · exact ⟨a, rest, rfl⟩
    · exact ih htail

/-- No piece has more than `size + 1` items. -/
theorem length_le_of_mem_pieces (h : piece ∈ pieces size items) : piece.length ≤ size + 1 := by
  obtain ⟨a, rest, rfl⟩ := exists_of_mem_pieces h
  simp

/-- No piece is empty. -/
theorem length_pos_of_mem_pieces (h : piece ∈ pieces size items) : 0 < piece.length := by
  obtain ⟨a, rest, rfl⟩ := exists_of_mem_pieces h
  simp

theorem pieces_eq_nil_iff : pieces size items = [] ↔ items = [] := by
  cases items <;> simp [pieces]

/-- A piece is shorter than the size only where nothing is left behind it. -/
theorem length_of_mem_dropLast_pieces (h : piece ∈ (pieces size items).dropLast) :
    piece.length = size + 1 := by
  fun_induction pieces size items with
  | case1 => simp at h
  | case2 a rest ih =>
    by_cases hlast : pieces size (rest.drop size) = []
    · simp [hlast] at h
    · rw [List.dropLast_cons_of_ne_nil hlast] at h
      have hrest : size < rest.length := by
        simpa [pieces_eq_nil_iff, List.drop_eq_nil_iff] using hlast
      rcases List.mem_cons.mp h with rfl | htail
      · rw [List.length_cons, List.length_take, Nat.min_eq_left hrest.le]
      · exact ih htail

/-- How many pieces there are: the number of items over `size + 1`, rounded up. -/
theorem pieces_length (size : Nat) (items : List α) :
    (pieces size items).length = items.length ⌈/⌉ (size + 1) := by
  fun_induction pieces size items with
  | case1 => simp
  | case2 a rest ih =>
    have hstep : rest.length + 1 + (size + 1) - 1 = rest.length + (size + 1) := by omega
    rw [List.length_cons, List.length_cons, ih, List.length_drop, Nat.ceilDiv_eq_add_pred_div,
      Nat.ceilDiv_eq_add_pred_div, hstep, Nat.add_div_right _ size.succ_pos]
    -- A short rest is used up by the first piece.
    rcases Nat.lt_or_ge rest.length size with hshort | hlong
    · have hrest : rest.length - size + (size + 1) - 1 = size := by omega
      rw [hrest, Nat.div_eq_of_lt size.lt_succ_self, Nat.div_eq_of_lt (Nat.lt_succ_of_lt hshort)]
    · have hrest : rest.length - size + (size + 1) - 1 = rest.length := by omega
      rw [hrest]

theorem chunks_take_flatten (size : Nat) (items : List α) (n : Nat) :
    ((chunks size items).take n).flatten = items.take (n * max 1 size) := by
  rw [chunks, pieces_take_flatten, show size - 1 + 1 = max 1 size by omega]

theorem chunks_flatten (size : Nat) (items : List α) : (chunks size items).flatten = items :=
  pieces_flatten (size - 1) items

/-- No chunk is larger than the size, which counts as one at least. -/
theorem length_le_of_mem_chunks (h : piece ∈ chunks size items) : piece.length ≤ max 1 size := by
  have hle := length_le_of_mem_pieces h
  omega

theorem length_pos_of_mem_chunks (h : piece ∈ chunks size items) : 0 < piece.length :=
  length_pos_of_mem_pieces h

/-- All chunks but the last one are full. -/
theorem length_of_mem_dropLast_chunks (h : piece ∈ (chunks size items).dropLast) :
    piece.length = max 1 size := by
  have hlength := length_of_mem_dropLast_pieces h
  omega

/-- How many chunks there are: the number of items over the size, rounded up. -/
theorem chunks_length (size : Nat) (items : List α) :
    (chunks size items).length = items.length ⌈/⌉ max 1 size := by
  rw [chunks, pieces_length, show size - 1 + 1 = max 1 size by omega]

end GuidedTour
