import GuidedTour.Proofs.Outline.Nesting
import GuidedTour.Proofs.Tree.Span

namespace GuidedTour

/-!
# Elements are well-formed

Where the rows of a tree are nested, what its outline lists has lines in order, a name that stands in
the file, and no children but the classes and methods of a class, within its lines.

* `Element.IsWellFormed` — what goes for one element;
* `Tree.Entry.name_eq` — where a name comes from;
* `Tree.Entry.mem_members` — the members of an entry are methods and classes below its node;
* `Tree.Entry.isWellFormed_element` — what goes for the element of one entry;
* `elements_wellFormed` — and so for all of a tree.
-/

/-- An element of a file has lines in order, a name that stands in the file if it has one, and
children only if it is a class: classes and methods within its lines. -/
structure Element.IsWellFormed (file content : String) (e : Element) : Prop where
  start : 1 ≤ e.startLine
  ordered : e.startLine ≤ e.endLine
  file : e.file = file
  name : e.name = anonymous ∨ IsPieceOf e.name content
  owner : e.children ≠ [] → e.kind = .classLike
  members : ∀ child ∈ e.children, child.kind = .classLike ∨ child.kind = .method
  inside : ∀ child ∈ e.children, e.startLine ≤ child.startLine ∧ child.endLine ≤ e.endLine

namespace Tree

variable {t : Tree} {file content : String}

/-! ### Names -/

/-- The name of a declaration is a piece of its file. -/
theorem isPieceOf_of_symbolName? {s : String}
    (h : t.symbolName? ⟨file, content.toUTF8⟩ = some s) : IsPieceOf s content := by
  rw [symbolName?] at h
  split at h
  · exact isPieceOf_of_text? h
  · obtain ⟨child, -, hchild⟩ := Option.bind_eq_some_iff.mp h
    exact isPieceOf_of_text? hchild

/-- The type that an implementation is for is a piece of its file. -/
theorem isPieceOf_of_implTarget? {s : String}
    (h : t.implTarget? ⟨file, content.toUTF8⟩ = some s) : IsPieceOf s content := by
  obtain ⟨target, -, htarget⟩ := Option.bind_eq_some_iff.mp h
  split at htarget
  · obtain ⟨inner, -, hinner⟩ := Option.bind_eq_some_iff.mp htarget
    exact isPieceOf_of_text? hinner
  · exact isPieceOf_of_text? htarget

namespace Entry

variable {e m : Entry}

/-- A name stands in the file, or there is none. -/
theorem name_eq (e : Entry) : e.name ⟨file, content.toUTF8⟩ = Element.anonymous ∨
    IsPieceOf (e.name ⟨file, content.toUTF8⟩) content := by
  have hgetD : ∀ name : Option String, (∀ s, name = some s → IsPieceOf s content) →
      name.getD Element.anonymous = Element.anonymous ∨
        IsPieceOf (name.getD Element.anonymous) content := by
    intro name hname
    cases name with
    | none => exact .inl rfl
    | some s => exact .inr (hname s rfl)
  rw [name]
  split
  · rw [className]
    split
    · exact hgetD _ fun s => isPieceOf_of_implTarget?
    · exact hgetD _ fun s => isPieceOf_of_symbolName?
  · exact hgetD _ fun s => isPieceOf_of_symbolName?

/-! ### Members -/

/-- The members of an entry are classes and methods, and their nodes are below its node. -/
theorem mem_members (he : e ∈ listings t.entries) (hm : m ∈ e.members) :
    (m.kind = .classLike ∨ m.kind = .method) ∧ m.node ∈ e.node.descendants := by
  obtain ⟨n, -, he⟩ := mem_listings_entries.mp he
  obtain hnone | hclass := Node.eq_classEntry_of_mem_contribution he
  · rw [hnone] at hm
    exact absurd hm List.not_mem_nil
  · -- the entry is a class, and the member comes from one of the nodes in its body
    rw [hclass, Node.classEntry_eq, members, List.mem_flatMap] at hm
    obtain ⟨k, hk, hm⟩ := hm
    have hbelow : k ∈ e.node.descendants :=
      (Node.members_sublist e.node).subset (List.mem_flatMap.mpr ⟨k, hk, k.mem_nodes_self⟩)
    rw [Node.memberEntries] at hm
    split at hm
    · rw [List.mem_singleton.mp hm, Node.classEntry_eq]
      exact ⟨.inl rfl, hbelow⟩
    · split at hm
      · rw [List.mem_singleton.mp hm]
        exact ⟨.inr rfl, hbelow⟩
      · exact absurd hm List.not_mem_nil

/-- One entry. -/
theorem isWellFormed_element (h : t.HasNestedRows) (he : e ∈ listings t.entries) :
    (e.element ⟨file, content.toUTF8⟩).IsWellFormed file content where
  start := by
    rw [startLine_element, startLine]
    exact Nat.le_add_left 1 _
  ordered := by
    -- an end before the start is moved to the start, whatever the rows are
    rw [startLine_element, endLine_element]
    exact Nat.le_max_right _ _
  file := file_element _ e
  name := by
    rw [name_element]
    exact e.name_eq
  owner := by
    have hlisted : e.element ⟨file, content.toUTF8⟩ ∈
        Element.listings (t.elements ⟨file, content.toUTF8⟩) := by
      rw [listings_elements_eq]
      exact List.mem_map_of_mem he
    exact kind_of_children_ne_nil hlisted
  members := by
    intro child hchild
    rw [children_element] at hchild
    obtain ⟨m, hm, rfl⟩ := List.mem_map.mp hchild
    rw [kind_element]
    exact (mem_members he hm).1
  inside := by
    intro child hchild
    rw [children_element] at hchild
    obtain ⟨m, hm, rfl⟩ := List.mem_map.mp hchild
    have hnode : e.node ∈ t.nodes := (entries_sublist t).subset (List.mem_map_of_mem he)
    obtain ⟨hstart, hordered, hstop⟩ :=
      h.isInside_of_mem_descendants hnode (mem_members he hm).2
    rw [startLine_element, startLine_element, endLine_element, endLine_element, startLine,
      startLine, endLine, endLine]
    omega

end Entry

end Tree

/-- **Elements are well-formed.** Where the rows of a tree are nested, this goes for its elements and
for all that is nested in them. -/
theorem elements_wellFormed {t : Tree} (file language content : String) (h : t.HasNestedRows) :
    ∀ e ∈ Element.listings (Outline.ofTree file language content t).elements,
      e.IsWellFormed file content := by
  intro e he
  have hlisted : e ∈ Element.listings (t.elements ⟨file, content.toUTF8⟩) := he
  rw [Tree.listings_elements_eq, List.mem_map] at hlisted
  obtain ⟨entry, hentry, rfl⟩ := hlisted
  exact entry.isWellFormed_element h hentry

/-- The class and its method are listed, and both are well-formed. -/
theorem elements_wellFormed_class :
    Tree.classOverRows.HasNestedRows ∧
      (Element.listings (Outline.ofTree "a.js" "javascript" classText Tree.classOverRows).elements).map
        (fun e => (e.kind, e.name, e.startLine, e.endLine)) =
          [(.classLike, "A", 1, 4), (.method, "m", 2, 3)] ∧
      ∀ e ∈ Element.listings
          (Outline.ofTree "a.js" "javascript" classText Tree.classOverRows).elements,
        e.IsWellFormed "a.js" classText := by
  have hrows : Tree.classOverRows.HasNestedRows := by decide +kernel
  exact ⟨hrows, by decide +kernel, elements_wellFormed "a.js" "javascript" classText hrows⟩

end GuidedTour
