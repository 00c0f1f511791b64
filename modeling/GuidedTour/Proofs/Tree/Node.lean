import GuidedTour.Tree.Basic
import Mathlib.Data.List.Lex
import Mathlib.Data.List.Pairwise

namespace GuidedTour

/-!
# Nodes of a syntax tree

A subtree may occur at several places of a tree. A node is a subtree together with its place.

* `Tree.Node` — a subtree, the numbers of the children on the way down to it, and its ancestors;
* `Node.children`, `Node.namedChildren`, `Node.inField?` — as for trees, but as nodes;
* `Node.nodes`, `Tree.nodes` — a node and all nodes below it, in preorder;
* `Node.pairwise_nodes` — preorder is the order of the positions, so that no node occurs twice;
* `Node.ancestors_of_mem_descendants`, `Node.mem_descendants_of_mem_ancestors` — a node is an
  ancestor of its descendants, and a descendant of its ancestors.
-/

namespace Tree

/-- A subtree at its place in a tree. -/
structure Node where
  tree : Tree
  /-- The numbers of the children on the way down from the root. -/
  position : List Nat
  /-- The nodes that the node is a proper part of, the nearest first. -/
  ancestors : List Node

namespace Node

/-- The whole of a tree. -/
def root (t : Tree) : Node := ⟨t, [], []⟩

/-- One of the nodes directly below, by its number. -/
def child (n : Node) (i : Nat) (t : Tree) : Node := ⟨t, n.position ++ [i], n :: n.ancestors⟩

/-- The nodes directly below. -/
def children (n : Node) : List Node := n.tree.children.mapIdx n.child

/-- The nodes directly below that the grammar names. -/
def namedChildren (n : Node) : List Node := n.children.filter fun c => c.tree.isNamed

/-- The first child in a field. -/
def inField? (n : Node) (name : String) : Option Node :=
  n.children.find? fun c => c.tree.field == some name

variable {n c m : Node}

/-! ### Children -/

/-- A child stands at its place in the list of trees. -/
theorem exists_of_mem_children (h : c ∈ n.children) :
    ∃ i, n.tree.children[i]? = some c.tree ∧ c = n.child i c.tree := by
  obtain ⟨i, hi, rfl⟩ := List.mem_mapIdx.mp h
  exact ⟨i, List.getElem?_eq_getElem hi, rfl⟩

/-- Above a child stand its parent and what is above that. -/
theorem ancestors_of_mem_children (h : c ∈ n.children) : c.ancestors = n :: n.ancestors := by
  obtain ⟨i, -, hc⟩ := exists_of_mem_children h
  rw [hc]
  rfl

/-- The children of a node stand at the children of its tree. -/
@[simp]
theorem map_tree_children (n : Node) : n.children.map tree = n.tree.children := by
  refine List.ext_getElem (by simp [children]) fun i _ _ => ?_
  simp [children, child]

theorem tree_mem_children (h : c ∈ n.children) : c.tree ∈ n.tree.children := by
  rw [← map_tree_children]
  exact List.mem_map_of_mem h

/-- A child is smaller than its parent. -/
theorem size_lt_of_mem_children (h : c ∈ n.children) : c.tree.size < n.tree.size :=
  Tree.size_lt_of_mem_children (tree_mem_children h)

theorem mem_children_of_mem_namedChildren (h : c ∈ n.namedChildren) : c ∈ n.children :=
  (List.mem_filter.mp h).1

/-- What is in a field is a child. -/
theorem mem_children_of_inField? {name : String} (h : n.inField? name = some c) :
    c ∈ n.children :=
  List.mem_of_find?_eq_some h

@[simp]
theorem map_tree_namedChildren (n : Node) : n.namedChildren.map tree = n.tree.namedChildren := by
  rw [namedChildren, Tree.namedChildren, ← map_tree_children, List.filter_map]
  rfl

@[simp]
theorem map_tree_inField? (n : Node) (name : String) :
    (n.inField? name).map tree = n.tree.inField? name := by
  rw [inField?, Tree.inField?, ← map_tree_children, List.find?_map]
  rfl

/-! ### All nodes -/

/-- A node and the nodes below it, in preorder. -/
def nodes (n : Node) : List Node := n :: n.children.attach.flatMap fun ⟨c, _⟩ => c.nodes
termination_by n.tree.size
decreasing_by exact size_lt_of_mem_children ‹_›

/-- The nodes below a node, in preorder. -/
def descendants (n : Node) : List Node := n.children.flatMap nodes

theorem nodes_eq (n : Node) : n.nodes = n :: n.descendants := by
  rw [nodes, descendants]
  simp

/-- What holds of a node as soon as it holds of all smaller ones holds of every node. -/
theorem sizeInduction {motive : Node → Prop}
    (step : ∀ n : Node, (∀ m : Node, m.tree.size < n.tree.size → motive m) → motive n)
    (n : Node) : motive n :=
  step n fun m _ => sizeInduction step m
termination_by n.tree.size

/-- What holds of a node as soon as it holds of all its children holds of every node. -/
theorem childrenInduction {motive : Node → Prop}
    (step : ∀ n : Node, (∀ c ∈ n.children, motive c) → motive n) (n : Node) : motive n :=
  n.sizeInduction fun n ih => step n fun c hc => ih c (size_lt_of_mem_children hc)

theorem mem_nodes_self (n : Node) : n ∈ n.nodes := by
  rw [nodes_eq]
  exact List.mem_cons_self

/-- The nodes from a node on are the node and those from its children on. -/
theorem mem_nodes_iff : m ∈ n.nodes ↔ m = n ∨ ∃ c ∈ n.children, m ∈ c.nodes := by
  rw [nodes_eq, List.mem_cons, descendants, List.mem_flatMap]

/-- What is below a node comes in the same order as from it on. -/
theorem descendants_sublist_nodes (n : Node) : n.descendants.Sublist n.nodes := by
  rw [nodes_eq]
  exact List.sublist_cons_self _ _

/-- The nodes from a child on come in their order among those below its parent. -/
theorem nodes_sublist_descendants (h : c ∈ n.children) : c.nodes.Sublist n.descendants := by
  rw [descendants, List.flatMap_def]
  exact List.sublist_flatten_of_mem (List.mem_map_of_mem h)

/-- The nodes from a node on come in their order among those from above it on. -/
theorem nodes_sublist_nodes (h : m ∈ n.nodes) : m.nodes.Sublist n.nodes := by
  induction n using childrenInduction with
  | step n ih =>
    obtain rfl | ⟨c, hc, hm⟩ := mem_nodes_iff.mp h
    · exact List.Sublist.refl _
    · exact ((ih c hc hm).trans (nodes_sublist_descendants hc)).trans (descendants_sublist_nodes n)

/-- The ancestors of a descendant end with the node and its own ancestors. -/
theorem ancestors_of_mem_descendants (h : m ∈ n.descendants) : (n :: n.ancestors) <:+ m.ancestors := by
  induction n using childrenInduction with
  | step n ih =>
    obtain ⟨c, hc, hm⟩ := List.mem_flatMap.mp h
    rw [← ancestors_of_mem_children hc]
    rw [nodes_eq, List.mem_cons] at hm
    obtain rfl | hm := hm
    · exact List.suffix_refl _
    · exact (List.suffix_cons c c.ancestors).trans (ih c hc hm)

/-- What is above a node is above all nodes from it on. -/
theorem ancestors_subset_of_mem_nodes (h : m ∈ n.nodes) : n.ancestors ⊆ m.ancestors := by
  rw [nodes_eq, List.mem_cons] at h
  obtain rfl | h := h
  · exact List.Subset.refl _
  · exact fun a ha => (ancestors_of_mem_descendants h).subset (List.mem_cons_of_mem n ha)

/-- An ancestor of one of the nodes of `n` is an ancestor of `n`, or else one of these nodes too and
has the other among its descendants. -/
theorem mem_descendants_of_mem_ancestors {a : Node} (hm : m ∈ n.nodes) (ha : a ∈ m.ancestors) :
    a ∈ n.ancestors ∨ a ∈ n.nodes ∧ m ∈ a.descendants := by
  induction n using childrenInduction with
  | step n ih =>
    obtain rfl | ⟨c, hc, hm⟩ := mem_nodes_iff.mp hm
    · exact .inl ha
    · -- By induction, what is above is above the child or between the child and the node.
      obtain habove | ⟨hinside, hbelow⟩ := ih c hc hm
      · rw [ancestors_of_mem_children hc, List.mem_cons] at habove
        obtain hself | habove := habove
        · rw [hself]
          exact .inr ⟨mem_nodes_self n, List.mem_flatMap.mpr ⟨c, hc, hm⟩⟩
        · exact .inl habove
      · exact .inr ⟨mem_nodes_iff.mpr (.inr ⟨c, hc, hinside⟩), hbelow⟩

/-! ### Preorder -/

/-- The position of a node begins with that of any node above it. -/
theorem position_of_mem_nodes (h : m ∈ n.nodes) : n.position <+: m.position := by
  induction n using childrenInduction with
  | step n ih =>
    obtain rfl | ⟨c, hc, hm⟩ := mem_nodes_iff.mp h
    · exact List.prefix_refl _
    · obtain ⟨i, -, hchild⟩ := exists_of_mem_children hc
      have hposition : n.position <+: c.position := by
        rw [hchild]
        exact List.prefix_append _ _
      exact hposition.trans (ih c hc hm)

/-- Children stand in the order of their numbers. -/
theorem pairwise_children (n : Node) :
    n.children.Pairwise fun c d => ∃ i j, i < j ∧
      c.position = n.position ++ [i] ∧ d.position = n.position ++ [j] := by
  rw [children, List.pairwise_iff_getElem]
  intro i j hi hj hlt
  exact ⟨i, j, hlt, by simp [child], by simp [child]⟩

/-- **Preorder is the order of the positions.** In particular no node occurs twice. -/
theorem pairwise_nodes (n : Node) : n.nodes.Pairwise fun a b => a.position < b.position := by
  induction n using childrenInduction with
  | step n ih =>
    rw [nodes_eq, List.pairwise_cons, descendants, List.pairwise_flatMap]
    refine ⟨fun m hm => ?first, ih, ?later⟩
    case first =>
      -- a node below goes on with the number of a child
      obtain ⟨c, hc, hm⟩ := List.mem_flatMap.mp hm
      obtain ⟨i, -, hchild⟩ := exists_of_mem_children hc
      obtain ⟨rest, hrest⟩ := position_of_mem_nodes hm
      rw [← hrest, hchild, child, List.append_assoc]
      conv_lhs => rw [← List.append_nil n.position]
      exact List.append_left_lt (List.nil_lt_cons _ _)
    case later =>
      refine (pairwise_children n).imp fun ⟨i, j, hlt, hi, hj⟩ a ha b hb => ?_
      obtain ⟨resta, ha⟩ := position_of_mem_nodes ha
      obtain ⟨restb, hb⟩ := position_of_mem_nodes hb
      rw [← ha, ← hb, hi, hj, List.append_assoc, List.append_assoc]
      exact List.append_left_lt (List.cons_lt_cons_iff.mpr (.inl hlt))

end Node

/-- The nodes of a tree in preorder. -/
def nodes (t : Tree) : List Node := (Node.root t).nodes

/-! ### Trees for examples -/

/-- A token on the first row. Its text is its kind. -/
def token (text : String) (start : Nat) : Tree :=
  .node text false none ⟨start, start + text.length, 0, 0⟩ []

/-- A node on the first row that the grammar names. -/
def phrase (kind : String) (field : Option String) (start stop : Nat) (children : List Tree) :
    Tree :=
  .node kind true field ⟨start, stop, 0, 0⟩ children

/-- The tree of `classText`. -/
def classOverRows : Tree :=
  .node "program" true none ⟨0, 23, 0, 3⟩ [
    .node "class_declaration" true none ⟨0, 23, 0, 3⟩ [
      .node "identifier" true (some "name") ⟨6, 7, 0, 0⟩ [],
      .node "class_body" true (some "body") ⟨8, 23, 0, 3⟩ [
        .node "method_definition" true none ⟨12, 21, 1, 2⟩ [
          .node "property_identifier" true (some "name") ⟨12, 13, 1, 1⟩ [],
          .node "formal_parameters" true (some "parameters") ⟨13, 15, 1, 1⟩ [],
          .node "statement_block" true (some "body") ⟨16, 21, 1, 2⟩ []]]]]

end Tree

/-- A class over four rows, with a method on the second and the third. -/
def classText : String := "class A \x7b\n  m() \x7b\n  \x7d\n\x7d"

end GuidedTour
