import GuidedTour.Proofs.Tree.Node

namespace GuidedTour

/-!
# The topmost nodes of a kind

A walk from the root that passes over anonymous nodes, and goes no further where it finds a node of
some kind, comes to the topmost nodes of that kind.

* `Node.between` — what is strictly between the root and a node;
* `Node.IsTopmost` — a node below the root is of the kind, and all that is between them is named and
  not of the kind;
* `Tree.topmost` — the named ones of these, in preorder;
* `Node.reached`, `topmost_eq_reached` — the walk, and that it comes to these and in this order;
* `Node.IsTransparent` — a node that the walk looks into on its way.
-/

namespace Tree

namespace Node

variable {stops : Tree → Bool} {n c m : Node}

/-- The nodes strictly between the root and a node. -/
def between (n : Node) : List Node := n.ancestors.dropLast

/-- A node below the root is of a kind, and nothing between it and the root is anonymous or of that
kind. -/
structure IsTopmost (stops : Tree → Bool) (n : Node) : Prop where
  ofKind : stops n.tree = true
  belowRoot : n.ancestors ≠ []
  transparent : ∀ a ∈ n.between, a.tree.isNamed = true ∧ stops a.tree = false

/-- A node is topmost if nothing between it and the root stops the walk or hides it. -/
theorem isTopmost_iff : n.IsTopmost stops ↔
    stops n.tree = true ∧ n.ancestors ≠ [] ∧ ∀ a ∈ n.between, a.tree.isNamed = true ∧ stops a.tree = false :=
  ⟨fun h => ⟨h.ofKind, h.belowRoot, h.transparent⟩, fun ⟨hstops, hroot, hbetween⟩ =>
    ⟨hstops, hroot, hbetween⟩⟩

instance : Decidable (n.IsTopmost stops) := decidable_of_iff' _ isTopmost_iff

/-- A topmost node of a kind that the grammar names. -/
def isFound (stops : Tree → Bool) (n : Node) : Bool := n.tree.isNamed && n.IsTopmost stops

/-- What the walk finds is topmost. -/
theorem isTopmost_of_isFound (h : isFound stops n = true) : n.IsTopmost stops := by
  rw [isFound, Bool.and_eq_true, decide_eq_true_eq] at h
  exact h.2

/-! ### The walk -/

/-- The nodes of a kind that a walk down from a node comes to, if it passes over anonymous nodes and
does not look into nodes of the kind. -/
def reached (stops : Tree → Bool) (n : Node) : List Node :=
  n.children.attach.flatMap fun ⟨c, _⟩ =>
    if c.tree.isNamed = false then [] else if stops c.tree then [c] else c.reached stops
termination_by n.tree.size
decreasing_by exact size_lt_of_mem_children ‹_›

/-- The walk goes child by child, and stops where it should. -/
theorem reached_eq (stops : Tree → Bool) (n : Node) :
    n.reached stops = n.children.flatMap fun c =>
      if c.tree.isNamed = false then [] else if stops c.tree then [c] else c.reached stops := by
  rw [reached]
  simp

/-- What is between the root and a child is between the root and all nodes below the child. -/
theorem between_of_mem_descendants (hc : c ∈ n.children) (hm : m ∈ n.descendants) :
    c.between <:+ m.between := by
  obtain ⟨front, hfront⟩ := ancestors_of_mem_descendants hm
  rw [between, between, ancestors_of_mem_children hc, ← hfront,
    List.dropLast_append_of_ne_nil (List.cons_ne_nil _ _)]
  exact List.suffix_append _ _

/-- Nothing is found below a node that the walk does not look into. -/
theorem filter_descendants_of_hidden (hroot : c.ancestors ≠ [])
    (hhidden : c.tree.isNamed = false ∨ stops c.tree = true) :
    c.descendants.filter (isFound stops) = [] := by
  rw [List.filter_eq_nil_iff]
  intro m hm hfound
  obtain ⟨d, hd, -⟩ := List.mem_flatMap.mp hm
  -- Whatever is below the node has it between itself and the root.
  have hbetween : c ∈ d.between := by
    rw [between, ancestors_of_mem_children hd, List.dropLast_cons_of_ne_nil hroot]
    exact List.mem_cons_self
  simp only [isFound, Bool.and_eq_true, decide_eq_true_eq] at hfound
  obtain ⟨hnamed, hopen⟩ :=
    hfound.2.transparent c ((between_of_mem_descendants hd hm).mem hbetween)
  obtain h | h := hhidden
  · rw [h] at hnamed
    contradiction
  · rw [h] at hopen
    contradiction

/-- Where all that is between is looked through, the walk comes to what is found. -/
theorem filter_descendants_eq_reached (n : Node)
    (hopen : ∀ c ∈ n.children, ∀ a ∈ c.between, a.tree.isNamed = true ∧ stops a.tree = false) :
    n.descendants.filter (isFound stops) = n.reached stops := by
  induction n using childrenInduction with
  | step n ih =>
    rw [descendants, List.filter_flatMap, reached_eq]
    refine List.flatMap_congr fun c hc => ?_
    have habove : c.ancestors ≠ [] := by
      rw [ancestors_of_mem_children hc]
      exact List.cons_ne_nil _ _
    have htopmost : c.IsTopmost stops ↔ stops c.tree = true :=
      ⟨IsTopmost.ofKind, fun h => ⟨h, habove, hopen c hc⟩⟩
    have hfound : isFound stops c = (c.tree.isNamed && stops c.tree) := by
      simp only [isFound, htopmost, Bool.decide_eq_true]
    rw [nodes_eq, List.filter_cons, hfound]
    cases hnamed : c.tree.isNamed with
    | false =>
      simpa using filter_descendants_of_hidden habove (.inl hnamed)
    | true =>
      cases hstops : stops c.tree with
      | true =>
        simpa using filter_descendants_of_hidden habove (.inr hstops)
      | false =>
        -- the child is looked through, and so is all that is between the root and its children
        simp only [Bool.and_false, Bool.false_eq_true, if_false]
        refine ih c hc fun d hd a ha => ?_
        rw [between, ancestors_of_mem_children hd, List.dropLast_cons_of_ne_nil habove,
          List.mem_cons] at ha
        obtain rfl | ha := ha
        · exact ⟨hnamed, hstops⟩
        · exact hopen c hc a ha

/-! ### Nodes on the way -/

/-- A node below the root that is looked into: neither it nor what is between it and the root is
anonymous or of the kind. -/
structure IsTransparent (stops : Tree → Bool) (n : Node) : Prop where
  belowRoot : n.ancestors ≠ []
  transparent : ∀ a ∈ n :: n.between, a.tree.isNamed = true ∧ stops a.tree = false

theorem isTransparent_iff : n.IsTransparent stops ↔
    n.ancestors ≠ [] ∧ ∀ a ∈ n :: n.between, a.tree.isNamed = true ∧ stops a.tree = false :=
  ⟨fun h => ⟨h.belowRoot, h.transparent⟩, fun ⟨hroot, hopen⟩ => ⟨hroot, hopen⟩⟩

instance : Decidable (n.IsTransparent stops) := decidable_of_iff' _ isTransparent_iff

/-- Below a transparent node the walk reaches all that it finds. -/
theorem IsTransparent.mem_reached_iff (hm : m.IsTransparent stops) :
    n ∈ m.reached stops ↔ n ∈ m.descendants ∧ isFound stops n = true := by
  rw [← filter_descendants_eq_reached, List.mem_filter]
  intro c hc a ha
  rw [between, ancestors_of_mem_children hc, List.dropLast_cons_of_ne_nil hm.belowRoot] at ha
  exact hm.transparent a ha

/-- What is above a topmost node, other than the root, is looked into. -/
theorem IsTopmost.isTransparent {t : Tree} (hn : n.IsTopmost stops) (hmem : n ∈ (root t).nodes)
    (hm : m ∈ n.ancestors) (hroot : m.ancestors ≠ []) : m.IsTransparent stops := by
  obtain hnone | ⟨-, hbelow⟩ := mem_descendants_of_mem_ancestors hmem hm
  · exact absurd hnone List.not_mem_nil
  obtain ⟨front, hfront⟩ := ancestors_of_mem_descendants hbelow
  refine ⟨hroot, fun a ha => hn.transparent a ?_⟩
  rw [between, ← hfront, List.dropLast_append_of_ne_nil (List.cons_ne_nil _ _),
    List.dropLast_cons_of_ne_nil hroot]
  exact List.mem_append_right front ha

end Node

/-- The topmost nodes of a kind that the grammar names, in preorder. -/
def topmost (stops : Tree → Bool) (t : Tree) : List Node := t.nodes.filter (Node.isFound stops)

/-- **A walk from the root comes to the topmost nodes**, in preorder. -/
theorem topmost_eq_reached (stops : Tree → Bool) (t : Tree) :
    t.topmost stops = (Node.root t).reached stops := by
  have hroot : Node.isFound stops (Node.root t) = false := by
    simp [Node.isFound, Node.isTopmost_iff, Node.root]
  rw [topmost, nodes, Node.nodes_eq, List.filter_cons, hroot]
  refine Node.filter_descendants_eq_reached _ fun c hc a ha => ?_
  rw [Node.between, Node.ancestors_of_mem_children hc] at ha
  simp [Node.root] at ha

end Tree

end GuidedTour
