import GuidedTour.Proofs.Outline.Entry
import Mathlib.Data.List.Flatten

namespace GuidedTour

open scoped List

/-!
# Elements stand in the order of the source

The elements of a tree, each one followed by those nested in it, come from nodes of the tree that
follow each other in preorder. So no node is listed twice, and none both by itself and in a class.

* `Node.contribution_sublist` — what a node stands for comes from the node and from below it;
* `Tree.entries_sublist` — and so it is for the whole tree;
* `elements_inSourceOrder` — the elements are those that the topmost declaring nodes stand for.
-/

namespace Tree

namespace Node

variable {n c m : Node}

/-- The children of a node come in their order among all below it. -/
theorem children_sublist_descendants (n : Node) : n.children <+ n.descendants := by
  have hself : n.children.flatMap (fun c => [c]) = n.children := by simp
  rw [← hself, descendants]
  refine List.Sublist.flatMap_right _ fun c _ => ?_
  rw [nodes_eq]
  exact List.singleton_sublist.mpr List.mem_cons_self

/-- The nodes below the named children of a node are below it, in the same order. -/
theorem flatMap_namedChildren_sublist {f : Node → List Node}
    (hf : ∀ c ∈ n.namedChildren, f c <+ c.nodes) :
    n.namedChildren.flatMap f <+ n.descendants :=
  (List.Sublist.flatMap_right _ hf).trans (List.filter_sublist.flatMap nodes)

/-- A declarator is the declaration itself or a child of it. -/
theorem eq_or_mem_children_of_mem_bindings (h : m ∈ n.bindings) : m = n ∨ m ∈ n.children := by
  simp only [bindings] at h
  split at h
  · exact .inl (List.mem_singleton.mp h)
  · exact .inr (mem_children_of_mem_namedChildren (List.mem_filter.mp h).1)

/-- Declarators come in their order among the nodes of the declaration. -/
theorem bindings_sublist (n : Node) : n.bindings <+ n.nodes := by
  simp only [bindings]
  split
  · exact List.singleton_sublist.mpr (mem_nodes_self n)
  · exact (List.filter_sublist.trans List.filter_sublist).trans
      ((children_sublist_descendants n).trans (descendants_sublist_nodes n))

/-- The nodes of a member come in their order among those of its wrapper. -/
theorem member?_sublist (c : Node) : c.member?.toList.flatMap nodes <+ c.nodes := by
  cases h : c.member? with
  | none => exact List.nil_sublist _
  | some m =>
    rw [Option.toList_some, List.flatMap_singleton]
    rw [member?] at h
    split at h
    · exact (nodes_sublist_descendants (mem_children_of_carried? h)).trans (descendants_sublist_nodes c)
    · obtain rfl := Option.some.inj h
      exact List.Sublist.refl _

/-- What is below the members of a class is below the class, in the same order. -/
theorem members_sublist (n : Node) : n.members.flatMap nodes <+ n.descendants := by
  rw [members]
  split
  · exact List.nil_sublist _
  · next body hbody =>
    rw [List.filterMap_eq_flatMap_toList, List.flatMap_assoc]
    calc body.namedChildren.flatMap (fun c => c.member?.toList.flatMap nodes)
      _ <+ body.descendants := flatMap_namedChildren_sublist fun c _ => member?_sublist c
      _ <+ body.nodes := descendants_sublist_nodes body
      _ <+ n.descendants := nodes_sublist_descendants (mem_children_of_inField? hbody)

/-! ### What a node stands for -/

/-- A member stands for nothing, for itself, or for itself and what it lists as a class. -/
theorem memberEntries_sublist (m : Node)
    (hclass : m.classEntry.listing.map Entry.node <+ m.nodes) :
    (Entry.listings m.memberEntries).map Entry.node <+ m.nodes := by
  rw [memberEntries]
  split
  · simpa [Entry.listings] using hclass
  · split
    · exact List.singleton_sublist.mpr (mem_nodes_self m)
    · exact List.nil_sublist _

/-- What a class lists comes in its order among the nodes of the class. -/
theorem classEntry_sublist (n : Node) : n.classEntry.listing.map Entry.node <+ n.nodes := by
  induction n using sizeInduction with
  | step n ih =>
    rw [classEntry_eq, Entry.listing, List.map_cons, nodes_eq, Entry.listings_eq_flatMap,
      List.flatMap_assoc, List.map_flatMap]
    refine List.Sublist.cons_cons n ?_
    refine (List.Sublist.flatMap_right _ fun m hm => ?_).trans (members_sublist n)
    rw [← Entry.listings_eq_flatMap]
    exact memberEntries_sublist m (ih m (size_lt_of_mem_members hm))

/-- What a node stands for comes from the node and from below it, in preorder. -/
theorem contribution_sublist (n : Node) :
    (Entry.listings n.contribution).map Entry.node <+ n.nodes := by
  have hself : [n] <+ n.nodes := List.singleton_sublist.mpr (mem_nodes_self n)
  fun_induction contribution n with
  | case1 n h => simpa [Entry.listings] using classEntry_sublist n
  | case2 n h => exact hself
  | case3 n h => exact hself
  | case4 n h => exact hself
  | case5 n h => exact hself
  | case6 n h =>
    -- Declarators are listed in order, and nothing below them.
    have hnodes : (Entry.listings (n.bindings.map fun b => .mk b b.tree.bindingKind [])).map
        Entry.node = n.bindings := by
      rw [Entry.listings_eq_flatMap, List.flatMap_map, List.map_flatMap]
      exact List.flatMap_singleton' _
    rw [hnodes]
    exact bindings_sublist n
  | case7 n h inner hinner ih =>
    have hinside := nodes_sublist_descendants (mem_children_of_carried? hinner)
    exact (ih (List.singleton_sublist.mpr (mem_nodes_self inner))).trans
      (hinside.trans (descendants_sublist_nodes n))
  | case8 n h hinner => exact List.nil_sublist _
  | case9 n h => exact List.nil_sublist _

/-- What a node stands for is among its nodes. -/
theorem node_mem_nodes {e : Entry} (he : e ∈ Entry.listings n.contribution) : e.node ∈ n.nodes :=
  (contribution_sublist n).subset (List.mem_map_of_mem he)

/-- What is below the nodes that a walk comes to is below the node it starts from. -/
theorem reached_sublist (stops : Tree → Bool) (n : Node) :
    (n.reached stops).flatMap nodes <+ n.descendants := by
  induction n using childrenInduction with
  | step n ih =>
    rw [reached_eq, descendants, List.flatMap_assoc]
    refine List.Sublist.flatMap_right _ fun c hc => ?_
    split
    · exact List.nil_sublist _
    · split
      · rw [List.flatMap_singleton]
      · exact (ih c hc).trans (descendants_sublist_nodes c)

end Node

/-! ### The whole tree -/

/-- The entries of a tree come from its nodes, in preorder. -/
theorem entries_sublist (t : Tree) : (Entry.listings t.entries).map Entry.node <+ t.nodes := by
  rw [entries, topmost_eq_reached, Entry.listings_eq_flatMap, List.flatMap_assoc,
    List.map_flatMap]
  calc ((Node.root t).reached declares).flatMap fun n =>
        (n.contribution.flatMap Entry.listing).map Entry.node
    _ <+ ((Node.root t).reached declares).flatMap Node.nodes :=
      List.Sublist.flatMap_right _ fun n _ => by
        rw [← Entry.listings_eq_flatMap]
        exact Node.contribution_sublist n
    _ <+ (Node.root t).descendants := Node.reached_sublist declares (Node.root t)
    _ <+ t.nodes := Node.descendants_sublist_nodes (Node.root t)

end Tree

/-- **Elements stand in the order of the source, and none is lost or told twice.** The elements of
a tree are what its topmost declaring nodes stand for, one node after the other in preorder. Listed
with all that is nested in them, they come from nodes of the tree that follow each other strictly in
preorder. -/
theorem elements_inSourceOrder (source : Source) (t : Tree) :
    t.elements source =
        ((t.topmost Tree.declares).flatMap Tree.Node.contribution).map (Tree.Entry.element source) ∧
      Element.listings (t.elements source) =
        (Tree.Entry.listings t.entries).map (Tree.Entry.element source) ∧
      (Tree.Entry.listings t.entries).map Tree.Entry.node <+ t.nodes ∧
      ((Tree.Entry.listings t.entries).map Tree.Entry.node).Pairwise
        fun a b => a.position < b.position := by
  have hsublist := Tree.entries_sublist t
  exact ⟨Tree.elements_eq_map_entries source t, Tree.listings_elements_eq source t, hsublist,
    (Tree.Node.pairwise_nodes (Tree.Node.root t)).sublist hsublist⟩

end GuidedTour
