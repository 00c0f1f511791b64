import GuidedTour.Proofs.Outline.SourceOrder

namespace GuidedTour

/-!
# What an outline looks into

An entry stands for a node below a topmost declaring node only if the two are joined by wrappers,
classes with their bodies, and declarations of variables.

* `Node.IsOpened` — a node that is looked into although it is, or is part of, a declaration;
* `Node.mem_listings_contribution`, `Node.mem_listing_classEntry` — what is listed for a node, one
  step at a time;
* `Node.isOpened_of_mem_contribution` — what is between an entry and the topmost node is opened;
* `Node.eq_classEntry_of_mem_contribution`, `Tree.kind_of_children_ne_nil` — only classes have
  members.
-/

namespace Tree

namespace Node

variable {n m a : Node} {e : Entry}

/-- The body of a class. -/
def IsClassBody (n : Node) : Prop :=
  ∃ c : Node, c.tree.nodeClass = .classLike ∧ c.inField? "body" = some n

/-- A node of a declaration that may have further declarations below it. -/
def IsOpened (n : Node) : Prop :=
  n.tree.nodeClass = .classLike ∨ n.tree.nodeClass = .wrapper ∨ n.tree.nodeClass = .binding ∨
    n.IsClassBody

/-! ### One step -/

/-- What is listed for a class is the class itself, a method, or is listed for a class in it. -/
theorem mem_listing_classEntry (h : e ∈ n.classEntry.listing) :
    e = n.classEntry ∨ ∃ m ∈ n.members,
      m.tree.nodeClass.isCallable = true ∧ e = .mk m .method [] ∨
      m.tree.nodeClass = .classLike ∧ e ∈ m.classEntry.listing := by
  rw [Entry.listing_eq, List.mem_cons] at h
  refine h.imp_right fun h => ?_
  rw [classEntry_eq, Entry.members, Entry.listings_eq_flatMap, List.mem_flatMap] at h
  -- An entry below the class is listed for one of its members.
  obtain ⟨k, hk, he⟩ := h
  obtain ⟨m, hm, hk⟩ := List.mem_flatMap.mp hk
  refine ⟨m, hm, ?_⟩
  rw [memberEntries] at hk
  split at hk
  · next hclass =>
    rw [List.mem_singleton.mp hk] at he
    exact .inr ⟨hclass, he⟩
  · split at hk
    · next hcallable =>
      rw [List.mem_singleton.mp hk, Entry.listing_eq] at he
      exact .inl ⟨hcallable, List.mem_singleton.mp he⟩
    · exact absurd hk List.not_mem_nil

/-- What is listed for a declaring node is listed for it as a class, is the node itself or one of
its declarators, or is listed for what it carries. -/
theorem mem_listings_contribution (h : e ∈ Entry.listings n.contribution) :
    n.tree.nodeClass = .classLike ∧ e ∈ n.classEntry.listing ∨
      (∃ kind, e = .mk n kind []) ∨
      (n.tree.nodeClass = .binding ∧ ∃ b ∈ n.bindings, e = .mk b b.tree.bindingKind []) ∨
      n.tree.nodeClass = .wrapper ∧
        ∃ inner, n.carried? = some inner ∧ e ∈ Entry.listings inner.contribution := by
  rw [contribution] at h
  -- Most nodes stand for one entry with nothing below it.
  have hleaf : ∀ kind, e ∈ Entry.listings [.mk n kind []] → ∃ kind, e = .mk n kind [] :=
    fun kind he => ⟨kind, List.mem_singleton.mp he⟩
  split at h
  · next hclass =>
    rw [Entry.listings, Entry.listings, List.append_nil] at h
    exact .inl ⟨hclass, h⟩
  · exact .inr (.inl (hleaf _ h))
  · exact .inr (.inl (hleaf _ h))
  · exact .inr (.inl (hleaf _ h))
  · exact .inr (.inl (hleaf _ h))
  · next hclass =>
    rw [Entry.listings_eq_flatMap, List.flatMap_map, List.mem_flatMap] at h
    obtain ⟨b, hb, he⟩ := h
    exact .inr (.inr (.inl ⟨hclass, b, hb, List.mem_singleton.mp he⟩))
  · next hclass =>
    split at h
    · next inner hinner => exact .inr (.inr (.inr ⟨hclass, inner, hinner, h⟩))
    · exact absurd h List.not_mem_nil
  · exact absurd h List.not_mem_nil

/-! ### All steps -/

/-- What is between a class and one of its members is its body and perhaps a wrapper. -/
theorem isOpened_of_mem_members (hclass : n.tree.nodeClass = .classLike) (hm : m ∈ n.members)
    (ha : a ∈ m.ancestors) : a ∈ n.ancestors ∨ a.IsOpened := by
  rw [members] at hm
  split at hm
  · exact absurd hm List.not_mem_nil
  · next body hbody =>
    obtain ⟨c, hc, hmember⟩ := List.mem_filterMap.mp hm
    -- A member is a child of the body, and the body is a child of the class.
    have hbodies : ∀ b ∈ c.ancestors, b ∈ n.ancestors ∨ b.IsOpened := by
      intro b hb
      rw [ancestors_of_mem_children (mem_children_of_mem_namedChildren hc),
        ancestors_of_mem_children (mem_children_of_inField? hbody), List.mem_cons,
        List.mem_cons] at hb
      obtain rfl | rfl | hb := hb
      · exact .inr (.inr (.inr (.inr ⟨n, hclass, hbody⟩)))
      · exact .inr (.inl hclass)
      · exact .inl hb
    rw [member?] at hmember
    split at hmember
    · next hwrapper =>
      rw [ancestors_of_mem_children (mem_children_of_carried? hmember), List.mem_cons] at ha
      obtain rfl | ha := ha
      · exact .inr (.inr (.inl (beq_iff_eq.mp hwrapper)))
      · exact hbodies a ha
    · obtain rfl := Option.some.inj hmember
      exact hbodies a ha

/-- What is above something that a class lists is above the class or opened by the walk. -/
theorem isOpened_of_mem_classEntry (hclass : n.tree.nodeClass = .classLike)
    (he : e ∈ n.classEntry.listing) (ha : a ∈ e.node.ancestors) :
    a ∈ n.ancestors ∨ a.IsOpened := by
  induction n using sizeInduction with
  | step n ih =>
    obtain rfl | ⟨m, hm, ⟨-, rfl⟩ | ⟨hmember, he⟩⟩ := mem_listing_classEntry he
    · rw [classEntry_eq] at ha
      exact .inl ha
    · exact isOpened_of_mem_members hclass hm ha
    · obtain ha | ha := ih m (size_lt_of_mem_members hm) hmember he
      · exact isOpened_of_mem_members hclass hm ha
      · exact .inr ha

/-- An ancestor of what is listed for a node is an ancestor of the node, or it is opened. -/
theorem isOpened_of_mem_contribution (he : e ∈ Entry.listings n.contribution)
    (ha : a ∈ e.node.ancestors) : a ∈ n.ancestors ∨ a.IsOpened := by
  -- The induction goes from a wrapper to what it carries.
  induction n using sizeInduction with
  | step n ih =>
    obtain ⟨hclass, he⟩ | ⟨kind, rfl⟩ | ⟨hbinding, b, hb, rfl⟩ | ⟨hwrapper, inner, hinner, he⟩ :=
      mem_listings_contribution he
    · exact isOpened_of_mem_classEntry hclass he ha
    · exact .inl ha
    · obtain rfl | hb := eq_or_mem_children_of_mem_bindings hb
      · exact .inl ha
      · rw [Entry.node, ancestors_of_mem_children hb, List.mem_cons] at ha
        obtain rfl | ha := ha
        · exact .inr (.inr (.inr (.inl hbinding)))
        · exact .inl ha
    · have hinside := mem_children_of_carried? hinner
      obtain ha | ha := ih inner (size_lt_of_mem_children hinside) he
      · rw [ancestors_of_mem_children hinside, List.mem_cons] at ha
        obtain rfl | ha := ha
        · exact .inr (.inr (.inl hwrapper))
        · exact .inl ha
      · exact .inr ha

/-! ### Members -/

@[simp]
theorem node_classEntry (n : Node) : n.classEntry.node = n := by
  rw [classEntry_eq, Entry.node]

/-- Of what a class lists, only classes list something themselves. -/
theorem eq_classEntry_of_mem_classEntry (he : e ∈ n.classEntry.listing) :
    e.members = [] ∨ e = e.node.classEntry := by
  induction n using sizeInduction with
  | step n ih =>
    obtain rfl | ⟨m, hm, ⟨-, rfl⟩ | ⟨-, he⟩⟩ := mem_listing_classEntry he
    · rw [node_classEntry]
      exact .inr rfl
    · exact .inl rfl
    · exact ih m (size_lt_of_mem_members hm) he

/-- What is listed below an entry is listed for its node as a class. -/
theorem eq_classEntry_of_mem_contribution (he : e ∈ Entry.listings n.contribution) :
    e.members = [] ∨ e = e.node.classEntry := by
  induction n using sizeInduction with
  | step n ih =>
    obtain ⟨-, he⟩ | ⟨kind, rfl⟩ | ⟨-, b, -, rfl⟩ | ⟨-, inner, hinner, he⟩ :=
      mem_listings_contribution he
    · exact eq_classEntry_of_mem_classEntry he
    · exact .inl rfl
    · exact .inl rfl
    · exact ih inner (size_lt_of_mem_children (mem_children_of_carried? hinner)) he

end Node

/-- All that is listed is listed for a topmost node. -/
theorem mem_listings_entries {t : Tree} {e : Entry} : e ∈ Entry.listings t.entries ↔
    ∃ n, n ∈ t.topmost declares ∧ e ∈ Entry.listings n.contribution := by
  rw [entries, Entry.listings_eq_flatMap, List.flatMap_assoc, List.mem_flatMap]
  simp only [Entry.listings_eq_flatMap]

/-- Only classes have children. -/
theorem kind_of_children_ne_nil {source : Source} {t : Tree} {e : Element}
    (he : e ∈ Element.listings (t.elements source)) (hchildren : e.children ≠ []) :
    e.kind = .classLike := by
  rw [listings_elements_eq, List.mem_map] at he
  obtain ⟨entry, hentry, rfl⟩ := he
  obtain ⟨n, -, hentry⟩ := mem_listings_entries.mp hentry
  obtain hnone | hclass := Node.eq_classEntry_of_mem_contribution hentry
  · rw [Entry.children_element, hnone] at hchildren
    exact absurd rfl hchildren
  · rw [Entry.kind_element, hclass, Node.classEntry_eq, Entry.kind]

end Tree

end GuidedTour
