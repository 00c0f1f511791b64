import GuidedTour.Proofs.Tree.Node

namespace GuidedTour

/-!
# What the nodes of a tree cover

* `Span.IsInside` — rows that lie within others, and start no later than they end;
* `Tree.HasNestedRows` — each child has its rows inside those of its parent;
* `Tree.HasNestedRows.isInside_of_mem_descendants` — and so has each descendant;
* `IsPieceOf` — a text that stands in another;
* `isPieceOf_of_extract`, `Tree.isPieceOf_of_text?` — the text of a node stands in its file.
-/

/-! ### Rows -/

namespace Span

/-- The rows of a span start no later than they end, and lie within those of another. -/
structure IsInside (inner outer : Span) : Prop where
  start : outer.startRow ≤ inner.startRow
  ordered : inner.startRow ≤ inner.endRow
  stop : inner.endRow ≤ outer.endRow

variable {inner middle outer : Span}

/-- What is inside something is inside all that this is inside of. -/
theorem IsInside.trans (h : inner.IsInside middle) (h' : middle.IsInside outer) :
    inner.IsInside outer where
  start := h'.start.trans h.start
  ordered := h.ordered
  stop := h.stop.trans h'.stop

theorem isInside_iff : inner.IsInside outer ↔
    outer.startRow ≤ inner.startRow ∧ inner.startRow ≤ inner.endRow ∧
      inner.endRow ≤ outer.endRow :=
  ⟨fun h => ⟨h.start, h.ordered, h.stop⟩, fun ⟨hstart, hordered, hstop⟩ =>
    ⟨hstart, hordered, hstop⟩⟩

instance : Decidable (inner.IsInside outer) := decidable_of_iff' _ isInside_iff

end Span

namespace Tree

open Node

/-- Every child of every node has its rows inside those of the node. -/
def HasNestedRows (t : Tree) : Prop :=
  ∀ n ∈ t.nodes, ∀ c ∈ n.children, c.tree.span.IsInside n.tree.span

instance (t : Tree) : Decidable t.HasNestedRows :=
  inferInstanceAs (Decidable (∀ n ∈ t.nodes, ∀ c ∈ n.children, c.tree.span.IsInside n.tree.span))

/-- In a tree with nested rows, the rows of a node are inside those of all above it. -/
theorem HasNestedRows.isInside_of_mem_descendants {t : Tree} (h : t.HasNestedRows) {n m : Node}
    (hn : n ∈ t.nodes) (hm : m ∈ n.descendants) : m.tree.span.IsInside n.tree.span := by
  induction n using childrenInduction with
  | step n ih =>
    obtain ⟨c, hc, hm⟩ := List.mem_flatMap.mp hm
    have hchild := h n hn c hc
    rw [nodes_eq, List.mem_cons] at hm
    obtain rfl | hm := hm
    · exact hchild
    · have hmem : c ∈ t.nodes :=
        (nodes_sublist_nodes hn).subset (mem_nodes_iff.mpr (.inr ⟨c, hc, mem_nodes_self c⟩))
      exact (ih c hc hmem hm).trans hchild

end Tree

/-! ### Text -/

/-- A text stands somewhere in another. -/
def IsPieceOf (s content : String) : Prop := ∃ before after, content = before ++ s ++ after

/-- Bytes of a text that are a text themselves are a piece of it. -/
theorem isPieceOf_of_extract {content s : String} {i j : Nat}
    (h : s.toByteArray = content.toByteArray.extract i j) : IsPieceOf s content := by
  -- past the end there are no bytes
  obtain ⟨k, hk, hextract⟩ : ∃ k, k ≤ content.utf8ByteSize ∧
      s.toByteArray = content.toByteArray.extract i k := by
    refine ⟨min j content.utf8ByteSize, Nat.min_le_right _ _, ?_⟩
    conv_lhs => rw [h, ← content.toByteArray.extract_zero_size, ByteArray.extract_extract]
    rw [Nat.zero_add, Nat.zero_add, String.size_toByteArray]
  rcases Nat.lt_or_ge i k with hlt | hge
  · -- both ends are where characters start
    have hvalid := s.isValidUTF8
    rw [hextract] at hvalid
    obtain heq | ⟨hstart, hstop⟩ :=
      (String.Pos.Raw.isValidUTF8_extract_iff ⟨i⟩ ⟨k⟩ (Nat.le_of_lt hlt) hk).mp hvalid
    · rw [String.Pos.Raw.mk.injEq] at heq
      omega
    · refine ⟨.fromUTF8 _ hstart.isValidUTF8_extract_zero,
        .fromUTF8 _ hstop.isValidUTF8_extract_utf8ByteSize, ?_⟩
      rw [← String.toByteArray_inj, String.toByteArray_append, String.toByteArray_append, hextract]
      show content.toByteArray = content.toByteArray.extract 0 i ++
        content.toByteArray.extract i k ++ content.toByteArray.extract k content.utf8ByteSize
      rw [← ByteArray.extract_eq_extract_append_extract i (Nat.zero_le i) (Nat.le_of_lt hlt),
        ← ByteArray.extract_eq_extract_append_extract k (Nat.zero_le k) hk,
        ← String.size_toByteArray, ByteArray.extract_zero_size]
  · have hempty : s = "" := by
      rw [← String.toByteArray_inj, hextract, String.toByteArray_empty,
        ByteArray.extract_eq_empty_iff]
      exact (Nat.min_le_left _ _).trans hge
    exact ⟨"", content, by rw [hempty, String.append_empty, String.empty_append]⟩

/-- The text of a node is a piece of the text it was parsed from. -/
theorem Tree.isPieceOf_of_text? {t : Tree} {content s : String}
    (h : t.text? content.toUTF8 = some s) : IsPieceOf s content := by
  rw [text?, String.fromUTF8?, String.toUTF8_eq_toByteArray] at h
  split at h
  · next hvalid =>
    obtain rfl := Option.some.inj h
    exact isPieceOf_of_extract rfl
  · contradiction

end GuidedTour
