import GuidedTour.Outline.FromTree
import GuidedTour.Proofs.Tree.Topmost

namespace GuidedTour

/-!
# Elements and the nodes they stand for

An element tells the name, the kind and the lines of a declaration, but not which node of the tree
it was made from. An entry does, and its element can be told from it.

* `Entry` — a node that is listed, what it is listed as, and the entries below it;
* `Entry.element` — the element of an entry;
* `Entry.listings` — entries, each one followed by those below it;
* `Node.contribution` — the entries that one declaring node stands for;
* `Tree.entries` — those of the topmost declaring nodes, in preorder;
* `Tree.elements_eq_map_entries` — the elements of a tree are those of its entries.
-/

namespace Element

mutual

/-- An element followed by all that is nested in it. -/
def listing : Element → List Element
  | ⟨kind, name, file, startLine, endLine, children⟩ =>
    ⟨kind, name, file, startLine, endLine, children⟩ :: listings children

/-- The elements of a list, each one followed by all that is nested in it. -/
def listings : List Element → List Element
  | [] => []
  | e :: rest => listing e ++ listings rest

end

/-- The listing of an element begins with the element, and the listings of its children follow. -/
theorem listing_eq (e : Element) : e.listing = e :: listings e.children := by
  cases e with
  | mk kind name file startLine endLine children => rw [listing]

theorem listings_eq_flatMap (elements : List Element) :
    listings elements = elements.flatMap listing := by
  induction elements with
  | nil => rfl
  | cons e rest ih => rw [listings, ih, List.flatMap_cons]

end Element

namespace Tree

/-- Whether a node declares something. -/
def declares (t : Tree) : Bool := t.nodeClass != .other

/-- A node that an outline lists, what it is listed as, and what is listed below it. -/
inductive Entry where
  | mk (node : Node) (kind : ElementKind) (members : List Entry)

namespace Entry

/-- The node that is listed. -/
def node : Entry → Node
  | mk node _ _ => node

/-- What it is listed as. -/
def kind : Entry → ElementKind
  | mk _ kind _ => kind

/-- What is listed below it. -/
def members : Entry → List Entry
  | mk _ _ members => members

/-- The name an entry gets. -/
def name (source : Source) (e : Entry) : String :=
  if e.kind = .classLike then e.node.tree.className source
  else (e.node.tree.symbolName? source).getD Element.anonymous

mutual

/-- The element of an entry. -/
def element (source : Source) : Entry → Element
  | mk node kind members =>
    { Element.leaf kind ((mk node kind members).name source) source.file node.tree.startLine
        node.tree.endLine with
      children := elements source members }

@[inherit_doc element]
def elements (source : Source) : List Entry → List Element
  | [] => []
  | e :: rest => element source e :: elements source rest

end

mutual

/-- An entry followed by all that is listed below it. -/
def listing : Entry → List Entry
  | mk node kind members => mk node kind members :: listings members

/-- The entries of a list, each one followed by all that is listed below it. -/
def listings : List Entry → List Entry
  | [] => []
  | e :: rest => listing e ++ listings rest

end

theorem elements_eq_map (source : Source) (entries : List Entry) :
    elements source entries = entries.map (element source) := by
  induction entries with
  | nil => rfl
  | cons e rest ih => rw [elements, ih, List.map_cons]

@[simp]
theorem kind_element (source : Source) (e : Entry) : (e.element source).kind = e.kind := by
  cases e with
  | mk node kind members => rw [element, Element.leaf, Entry.kind]

@[simp]
theorem name_element (source : Source) (e : Entry) : (e.element source).name = e.name source := by
  cases e with
  | mk node kind members => rw [element, Element.leaf]

@[simp]
theorem file_element (source : Source) (e : Entry) : (e.element source).file = source.file := by
  cases e with
  | mk node kind members => rw [element, Element.leaf]

@[simp]
theorem startLine_element (source : Source) (e : Entry) :
    (e.element source).startLine = e.node.tree.startLine := by
  cases e with
  | mk node kind members => rw [element, Element.leaf, Entry.node]

/-- An element never ends before it starts, not even where its node does. -/
@[simp]
theorem endLine_element (source : Source) (e : Entry) :
    (e.element source).endLine = max e.node.tree.endLine e.node.tree.startLine := by
  cases e with
  | mk node kind members => rw [element, Element.leaf, Entry.node]

/-- The children of an element are the elements of what is listed below its entry. -/
@[simp]
theorem children_element (source : Source) (e : Entry) :
    (e.element source).children = e.members.map (element source) := by
  cases e with
  | mk node kind members => rw [element, Entry.members, elements_eq_map]

theorem listings_eq_flatMap (entries : List Entry) : listings entries = entries.flatMap listing := by
  induction entries with
  | nil => rfl
  | cons e rest ih => rw [listings, ih, List.flatMap_cons]

/-- The listing of an entry begins with the entry, and the listings of its members follow. -/
theorem listing_eq (e : Entry) : e.listing = e :: listings e.members := by
  cases e with
  | mk node kind members => rw [listing, Entry.members]

mutual

/-- An element is listed as its entry is. -/
theorem listing_element (source : Source) :
    ∀ e : Entry, (e.element source).listing = e.listing.map (element source)
  | mk node kind members => by
    rw [element, listing, Element.leaf, Element.listing, List.map_cons,
      listings_elements source members, element, Element.leaf]

/-- Elements are listed as their entries are. -/
theorem listings_elements (source : Source) :
    ∀ entries : List Entry,
      Element.listings (elements source entries) = (listings entries).map (element source)
  | [] => rfl
  | e :: rest => by
    rw [elements, Element.listings, listings, List.map_append, listing_element source e,
      listings_elements source rest]

end

end Entry

/-- What a class lists for one of its members. -/
def memberElements (source : Source) (m : Tree) : List Element :=
  if m.nodeClass = .classLike then [m.classElement source]
  else if m.nodeClass.isCallable then [m.leaf source .method]
  else []

/-- The element of a class, with its children told member by member. -/
theorem classElement_eq (source : Source) (t : Tree) :
    t.classElement source =
      { Element.leaf .classLike (t.className source) source.file t.startLine t.endLine with
        children := t.classMembers.flatMap (memberElements source) } := by
  rw [classElement]
  simp only [beq_iff_eq, List.flatMap_subtype, List.unattach_attach]
  rfl

/-- A function is listed as a function, asynchronous or not. -/
theorem functionKind_mem (t : Tree) :
    t.functionKind ∈ [ElementKind.function, .asyncFunction] := by
  rw [functionKind]
  split <;> decide

/-- A declared name is listed as a binding, or as the function that it is bound to. -/
theorem bindingKind_mem (t : Tree) :
    t.bindingKind ∈ [ElementKind.binding, .function, .asyncFunction] := by
  rw [bindingKind]
  split
  · split
    · exact List.mem_cons_of_mem _ (functionKind_mem _)
    · decide
  · decide

theorem functionKind_ne {kind : ElementKind} (t : Tree)
    (h : kind ∉ [ElementKind.function, .asyncFunction]) : t.functionKind ≠ kind :=
  ne_of_mem_of_not_mem t.functionKind_mem h

theorem bindingKind_ne {kind : ElementKind} (t : Tree)
    (h : kind ∉ [ElementKind.binding, .function, .asyncFunction]) : t.bindingKind ≠ kind :=
  ne_of_mem_of_not_mem t.bindingKind_mem h

/-- What declares nothing has no elements. -/
theorem declaration_of_other (source : Source) {t : Tree} (h : t.nodeClass = .other) :
    t.declaration source = [] := by
  rw [declaration, h]

/-- A wrapper stands for what it carries; what declares nothing stands for nothing anyway. -/
theorem declaration_of_carried (source : Source) {t inner : Tree} (h : t.nodeClass = .wrapper)
    (hinner : t.carried? = some inner) : t.declaration source = inner.declaration source := by
  rw [declaration, h]
  simp only
  split
  · next carried hcarried =>
    obtain rfl : inner = carried := Option.some.inj (hinner.symm.trans hcarried)
    by_cases hother : inner.nodeClass = .other
    · rw [if_pos (beq_iff_eq.mpr hother), declaration_of_other source hother]
    · rw [if_neg (mt beq_iff_eq.mp hother)]
  · next hcarried => rw [hinner] at hcarried; contradiction

/-- A wrapper that carries nothing has no elements. -/
theorem declaration_of_bare (source : Source) {t : Tree} (h : t.nodeClass = .wrapper)
    (hinner : t.carried? = none) : t.declaration source = [] := by
  rw [declaration, h]
  simp only
  split
  · next hcarried => rw [hinner] at hcarried; contradiction
  · rfl

/-! ### What a declaring node stands for -/

namespace Node

variable {n c m : Node}

/-- The declaration that a wrapper carries: the child in its field for a declaration or for a
definition, else its first named child other than a decorator or a comment. -/
def carried? (n : Node) : Option Node :=
  (n.inField? "declaration").or <| (n.inField? "definition").or <|
    n.namedChildren.find? fun c => !(["decorator", "comment"].contains c.tree.kind)

/-- The declarators of a declaration of variables; the node itself if it has none. -/
def bindings (n : Node) : List Node :=
  let declarators := n.namedChildren.filter fun c => c.tree.kind == "variable_declarator"
  if declarators.isEmpty then [n] else declarators

/-- A member of a class without its wrapper. -/
def member? (n : Node) : Option Node := if n.tree.nodeClass == .wrapper then n.carried? else some n

/-- The members of a class, without their wrappers. -/
def members (n : Node) : List Node :=
  match n.inField? "body" with
  | none => []
  | some body => body.namedChildren.filterMap member?

/-- What a wrapper carries is one of its children. -/
theorem mem_children_of_carried? (h : n.carried? = some c) : c ∈ n.children := by
  simp only [carried?, Option.or_eq_some_iff] at h
  obtain h | ⟨-, h | ⟨-, h⟩⟩ := h
  · exact mem_children_of_inField? h
  · exact mem_children_of_inField? h
  · exact mem_children_of_mem_namedChildren (List.mem_of_find?_eq_some h)

/-- The node that a wrapper carries stands at the tree that its tree carries. -/
@[simp]
theorem map_tree_carried? (n : Node) : n.carried?.map tree = n.tree.carried? := by
  rw [carried?, Tree.carried?, Option.map_or, Option.map_or, map_tree_inField?,
    map_tree_inField?, ← map_tree_namedChildren, List.find?_map]
  -- The fields are tried one after the other, on the node as on its tree.
  cases n.tree.inField? "declaration" with
  | some c => rfl
  | none =>
    cases n.tree.inField? "definition" with
    | some c => rfl
    | none => rfl

/-- Without its wrapper, a member stands at the tree that its tree holds. -/
@[simp]
theorem map_tree_member? (n : Node) : n.member?.map tree = n.tree.member? := by
  rw [member?, Tree.member?]
  split
  · exact map_tree_carried? n
  · rfl

/-- The members of a class stand at the members of its tree. -/
@[simp]
theorem map_tree_members (n : Node) : n.members.map tree = n.tree.classMembers := by
  rw [members, classMembers, ← map_tree_inField?]
  cases n.inField? "body" with
  | none => rfl
  | some body =>
    simp only [Option.map_some, ← map_tree_namedChildren, List.map_filterMap, List.filterMap_map,
      map_tree_member?]
    rfl

/-- The declarators of a declaration stand at the declarators of its tree. -/
@[simp]
theorem map_tree_bindings (n : Node) : n.bindings.map tree = n.tree.bindings := by
  simp only [bindings, Tree.bindings, ← map_tree_namedChildren, List.filter_map,
    List.isEmpty_map]
  split
  · rw [if_pos ‹_›]
    rfl
  · rw [if_neg ‹_›]
    rfl

/-- A member is smaller than its class, by which `classEntry` comes to an end. -/
theorem size_lt_of_mem_members (h : m ∈ n.members) : m.tree.size < n.tree.size :=
  Tree.size_lt_of_mem_classMembers (by rw [← map_tree_members]; exact List.mem_map_of_mem h)

/-- A class with its methods and nested classes. -/
def classEntry (n : Node) : Entry :=
  .mk n .classLike <| n.members.attach.flatMap fun ⟨m, _⟩ =>
    if m.tree.nodeClass = .classLike then [m.classEntry]
    else if m.tree.nodeClass.isCallable then [.mk m .method []]
    else []
termination_by n.tree.size
decreasing_by exact size_lt_of_mem_members ‹_›

/-- What a declaring node stands for: a class, function, method, interface or enumeration for
itself, a declaration of variables for its declarators, and a wrapper for what it carries. -/
def contribution (n : Node) : List Entry :=
  match n.tree.nodeClass with
  | .classLike => [n.classEntry]
  | .function => [.mk n n.tree.functionKind []]
  | .method => [.mk n .method []]
  | .interface => [.mk n .interface []]
  | .enumeration => [.mk n .enumeration []]
  | .binding => n.bindings.map fun b => .mk b b.tree.bindingKind []
  | .wrapper =>
    match _h : n.carried? with
    | some inner => inner.contribution
    | none => []
  | .other => []
termination_by n.tree.size
decreasing_by exact size_lt_of_mem_children (mem_children_of_carried? ‹_›)

/-! ### Elements from nodes -/

/-- What a class lists for one of its members. -/
def memberEntries (m : Node) : List Entry :=
  if m.tree.nodeClass = .classLike then [m.classEntry]
  else if m.tree.nodeClass.isCallable then [.mk m .method []]
  else []

/-- The entry of a class, with its members told one by one. -/
theorem classEntry_eq (n : Node) :
    n.classEntry = .mk n .classLike (n.members.flatMap memberEntries) := by
  rw [classEntry, Entry.mk.injEq]
  refine ⟨rfl, rfl, ?_⟩
  simp only [List.flatMap_subtype, List.unattach_attach]
  rfl

/-- The element of an entry with nothing below it. Only the name of a class is found in a way of its
own. -/
theorem element_leaf (source : Source) {kind : ElementKind} (hkind : kind ≠ .classLike)
    (n : Node) : (Entry.mk n kind []).element source = n.tree.leaf source kind := by
  rw [Entry.element, Entry.name, Entry.kind, if_neg hkind]
  rfl

/-- What a class lists for a member comes from the entries of the member, if it does for the member
as a class. -/
theorem map_element_memberEntries (source : Source) (m : Node)
    (hclass : m.classEntry.element source = m.tree.classElement source) :
    m.memberEntries.map (Entry.element source) = m.tree.memberElements source := by
  rw [memberEntries, Tree.memberElements]
  split
  · rw [List.map_singleton, hclass]
  · split
    · rw [List.map_singleton, element_leaf source (by decide)]
    · rfl

/-- The element of a class is that of its entry. -/
theorem element_classEntry (source : Source) (n : Node) :
    n.classEntry.element source = n.tree.classElement source := by
  -- The induction is on the size of the tree, for a member may be a class under its wrapper.
  induction n using sizeInduction with
  | step n ih =>
    have hmembers : (n.members.flatMap memberEntries).map (Entry.element source) =
        n.tree.classMembers.flatMap (Tree.memberElements source) := by
      rw [List.map_flatMap, ← map_tree_members, List.flatMap_map]
      exact List.flatMap_congr fun m hm =>
        map_element_memberEntries source m (ih m (size_lt_of_mem_members hm))
    rw [classEntry_eq, classElement_eq, Entry.element, Entry.elements_eq_map, hmembers]
    rfl

/-- The elements that a declaring node gives are those of the entries that it stands for. -/
theorem map_element_contribution (source : Source) (n : Node) :
    n.contribution.map (Entry.element source) = n.tree.declaration source := by
  -- One case for each class of nodes, and two for wrappers; only a wrapper that carries something
  -- needs the induction hypothesis.
  fun_induction contribution n with
  | case1 n h => simp only [declaration, h, List.map_singleton, element_classEntry]
  | case2 n h =>
    simp only [declaration, h, List.map_singleton]
    rw [element_leaf source (functionKind_ne n.tree (by decide))]
  | case3 n h =>
    simp only [declaration, h, List.map_singleton]
    rw [element_leaf source (by decide)]
  | case4 n h =>
    simp only [declaration, h, List.map_singleton]
    rw [element_leaf source (by decide)]
  | case5 n h =>
    simp only [declaration, h, List.map_singleton]
    rw [element_leaf source (by decide)]
  | case6 n h =>
    simp only [declaration, h]
    rw [← map_tree_bindings, List.map_map, List.map_map]
    exact List.map_congr_left fun b _ => element_leaf source (bindingKind_ne b.tree (by decide)) b
  | case7 n h inner hinner ih =>
    have hcarried : n.tree.carried? = some inner.tree := by
      rw [← map_tree_carried?, hinner, Option.map_some]
    rw [declaration_of_carried source h hcarried, ih]
  | case8 n h hinner =>
    have hcarried : n.tree.carried? = none := by
      rw [← map_tree_carried?, hinner, Option.map_none]
    rw [declaration_of_bare source h hcarried, List.map_nil]
  | case9 n h => simp only [declaration, h, List.map_nil]

end Node

/-! ### All elements -/

/-- What the topmost declaring nodes of a tree stand for, in preorder. -/
def entries (t : Tree) : List Entry := (t.topmost declares).flatMap Node.contribution

/-- The walk over several trees gives for each named one its declaration, or, where it declares
nothing, what the walk finds below it. -/
theorem elementsOf_eq_flatMap (source : Source) (trees : List Tree) :
    elementsOf source trees = trees.flatMap fun c =>
      if c.isNamed = false then [] else if c.declares then c.declaration source
        else c.elements source := by
  induction trees with
  | nil => rfl
  | cons c rest ih =>
    rw [elementsOf, ih, List.flatMap_cons]
    congr 1
    cases c.isNamed with
    | false => rfl
    | true =>
      -- The walk asks whether the class is `other`, which is whether nothing is declared.
      by_cases hother : c.nodeClass = .other
      · simp [declares, hother]
      · simp [declares, hother]

/-- The walk below a tree does this for its children. -/
theorem elements_eq_flatMap (source : Source) (t : Tree) :
    t.elements source = t.children.flatMap fun c =>
      if c.isNamed = false then [] else if c.declares then c.declaration source
        else c.elements source := by
  cases t with
  | node _ _ _ _ children => rw [elements, elementsOf_eq_flatMap, Tree.children]

/-- The walk that gathers elements comes to the nodes that declare something. -/
theorem map_element_reached (source : Source) (n : Node) :
    ((n.reached declares).flatMap Node.contribution).map (Entry.element source) =
      n.tree.elements source := by
  induction n using Node.childrenInduction with
  | step n ih =>
    -- Both walks go child by child, so it is enough to compare what they do at one child.
    rw [Node.reached_eq, elements_eq_flatMap, ← Node.map_tree_children, List.flatMap_map,
      List.flatMap_assoc, List.map_flatMap]
    refine List.flatMap_congr fun c hc => ?_
    split
    · rfl
    · split
      · rw [List.flatMap_singleton, Node.map_element_contribution]
      · exact ih c hc

/-- **The elements of a tree are those of its entries.** -/
theorem elements_eq_map_entries (source : Source) (t : Tree) :
    t.elements source = t.entries.map (Entry.element source) := by
  rw [entries, topmost_eq_reached, map_element_reached]
  rfl

/-- The same goes for all that is nested in the elements. -/
theorem listings_elements_eq (source : Source) (t : Tree) :
    Element.listings (t.elements source) = (Entry.listings t.entries).map (Entry.element source) := by
  rw [elements_eq_map_entries, ← Entry.elements_eq_map, Entry.listings_elements]

end Tree

end GuidedTour
