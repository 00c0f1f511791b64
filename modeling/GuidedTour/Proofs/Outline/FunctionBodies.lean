import GuidedTour.Proofs.Outline.Nesting

namespace GuidedTour

/-!
# What is listed from inside functions

What is declared inside a declared function is not listed. A function literal is no declaration, and
so it is looked into unless a declaration around it keeps it hidden.

* `Tree.isFunction` — a node is a function: a declared one, or a literal;
* `Tree.nodeClass_of_isFunctionLiteral` — a function literal declares nothing;
* `listed_inFunction_iff` — from inside which functions something is listed;
* `callback_leaks` — a function in the body of a callback is listed.
-/

namespace Tree

/-- Whether a node is a function: a declaration of a function or method, or a function literal. -/
def isFunction (t : Tree) : Bool := t.nodeClass.isCallable || isFunctionLiteral t.kind

/-- A function literal declares nothing. -/
theorem nodeClass_of_isFunctionLiteral {t : Tree} (h : isFunctionLiteral t.kind = true) :
    t.nodeClass = .other := by
  rw [isFunctionLiteral, List.contains_eq_mem, decide_eq_true_eq] at h
  rw [nodeClass]
  simp only [List.mem_cons, List.not_mem_nil, or_false] at h
  rcases h with h | h | h | h | h | h <;> rw [h] <;> decide

/-- A function is declared, or it is a literal and declares nothing. -/
theorem isFunction_cases {t : Tree} (h : t.isFunction = true) :
    t.nodeClass.isCallable = true ∨ isFunctionLiteral t.kind = true ∧ t.nodeClass = .other := by
  rw [isFunction, Bool.or_eq_true] at h
  exact h.imp_right fun hliteral => ⟨hliteral, nodeClass_of_isFunctionLiteral hliteral⟩

/-- A function that declares nothing is a literal. -/
theorem isFunctionLiteral_of_not_declares {t : Tree} (h : t.isFunction = true)
    (hdeclares : t.declares = false) : isFunctionLiteral t.kind = true := by
  obtain hcallable | ⟨hliteral, -⟩ := isFunction_cases h
  · rw [declares, bne_eq_false_iff_eq] at hdeclares
    rw [hdeclares] at hcallable
    exact absurd hcallable (by decide)
  · exact hliteral

namespace Node

variable {f n : Node} {e : Entry}

/-- Among the nodes that are looked into in a declaration, only the body of a class may be a
function. -/
theorem IsOpened.isClassBody (hopened : f.IsOpened) (hfunction : f.tree.isFunction = true) :
    f.IsClassBody := by
  have hnone : ∀ c, f.tree.nodeClass = c → c ≠ .other → c.isCallable = false → False := by
    rintro c rfl hother hcallable
    obtain h | ⟨-, h⟩ := isFunction_cases hfunction
    · rw [h] at hcallable
      contradiction
    · exact hother h
  obtain h | h | h | h := hopened
  · exact (hnone _ h (by decide) (by decide)).elim
  · exact (hnone _ h (by decide) (by decide)).elim
  · exact (hnone _ h (by decide) (by decide)).elim
  · exact h

end Node

/-! ### Below nodes that are looked into -/

/-- A topmost node is not above a node that is looked into, nor is it one. -/
theorem Node.IsTransparent.not_mem_nodes {f n : Node} {stops : Tree → Bool}
    (hf : f.IsTransparent stops) (hn : n.IsTopmost stops) : f ∉ n.nodes := by
  intro hmem
  have hstops : n ∉ f :: f.between := by
    intro h
    have hopen := (hf.transparent n h).2
    rw [hn.ofKind] at hopen
    contradiction
  rw [nodes_eq, List.mem_cons] at hmem
  obtain rfl | hmem := hmem
  · exact hstops List.mem_cons_self
  · obtain ⟨front, hfront⟩ := ancestors_of_mem_descendants hmem
    refine hstops (List.mem_cons_of_mem f ?_)
    rw [between, ← hfront, List.dropLast_append_of_ne_nil (List.cons_ne_nil _ _),
      List.dropLast_cons_of_ne_nil hn.belowRoot]
    exact List.mem_append_right front List.mem_cons_self

/-- Something is listed below a node that is looked into exactly if something is listed for it
alone. -/
theorem Node.IsTransparent.exists_entry_iff {t : Tree} {f : Node} (source : Source)
    (hf : f.IsTransparent declares) (hmem : f ∈ t.nodes) :
    (∃ e ∈ Entry.listings t.entries, f ∈ e.node.ancestors) ↔ f.tree.elements source ≠ [] := by
  have hreached : f.tree.elements source ≠ [] ↔
      ∃ n ∈ f.reached declares, n.contribution ≠ [] := by
    rw [← map_element_reached, ne_eq, List.map_eq_nil_iff, List.flatMap_eq_nil_iff, not_forall]
    simp only [Classical.not_imp, ne_eq]
  rw [hreached]
  constructor
  · rintro ⟨e, he, hfe⟩
    obtain ⟨n, hn, he⟩ := mem_listings_entries.mp he
    obtain ⟨hnode, hfound⟩ := List.mem_filter.mp hn
    obtain hfn | ⟨hfn, -⟩ := mem_descendants_of_mem_ancestors (node_mem_nodes he) hfe
    · obtain hnone | ⟨-, hbelow⟩ := mem_descendants_of_mem_ancestors hnode hfn
      · exact absurd hnone List.not_mem_nil
      · refine ⟨n, hf.mem_reached_iff.mpr ⟨hbelow, hfound⟩, fun hnil => ?_⟩
        rw [hnil] at he
        exact absurd he List.not_mem_nil
    · exact absurd hfn (hf.not_mem_nodes (isTopmost_of_isFound hfound))
  · rintro ⟨n, hn, hcontribution⟩
    obtain ⟨hbelow, hfound⟩ := hf.mem_reached_iff.mp hn
    obtain ⟨e, he⟩ := List.exists_mem_of_ne_nil _ hcontribution
    have hlisted : e ∈ Entry.listings n.contribution := by
      rw [Entry.listings_eq_flatMap]
      exact List.mem_flatMap.mpr ⟨e, he, e.listing_eq ▸ List.mem_cons_self⟩
    have hnode : n ∈ t.nodes :=
      (nodes_sublist_nodes hmem).subset ((descendants_sublist_nodes f).subset hbelow)
    refine ⟨e, mem_listings_entries.mpr ⟨n, List.mem_filter.mpr ⟨hnode, hfound⟩, hlisted⟩, ?_⟩
    exact ancestors_subset_of_mem_nodes (node_mem_nodes hlisted)
      ((ancestors_of_mem_descendants hbelow).subset List.mem_cons_self)

end Tree

/-- **What is listed from inside functions.** The root and the bodies of classes apart, something is
listed from inside a function exactly if the function is a literal that no declaration is around, and
something is listed for it alone. From inside a declared function or method nothing is listed. -/
theorem listed_inFunction_iff (source : Source) (t : Tree) :
    Element.listings (t.elements source) =
        (Tree.Entry.listings t.entries).map (Tree.Entry.element source) ∧
      ∀ f ∈ t.nodes, f.tree.isFunction = true → f.ancestors ≠ [] → ¬ f.IsClassBody →
        ((∃ e ∈ Tree.Entry.listings t.entries, f ∈ e.node.ancestors) ↔
          isFunctionLiteral f.tree.kind = true ∧ f.IsTransparent Tree.declares ∧
            f.tree.elements source ≠ []) := by
  refine ⟨Tree.listings_elements_eq source t, fun f hmem hfunction hroot hbody => ?_⟩
  constructor
  · rintro ⟨e, he, hfe⟩
    obtain ⟨n, hn, hlisted⟩ := Tree.mem_listings_entries.mp he
    obtain ⟨hnode, hfound⟩ := List.mem_filter.mp hn
    obtain hfn | hopened := Tree.Node.isOpened_of_mem_contribution hlisted hfe
    · -- the function is above the topmost node, and so it is looked into
      have hf := (Tree.Node.isTopmost_of_isFound hfound).isTransparent hnode hfn hroot
      have hliteral := Tree.isFunctionLiteral_of_not_declares hfunction
        (hf.transparent f List.mem_cons_self).2
      exact ⟨hliteral, hf, (hf.exists_entry_iff source hmem).mp ⟨e, he, hfe⟩⟩
    · exact absurd (hopened.isClassBody hfunction) hbody
  · rintro ⟨-, hf, helements⟩
    exact (hf.exists_entry_iff source hmem).mpr helements

namespace Tree

/-- The tree of `function helper() {}`, from a byte on. -/
def helperFunction (start : Nat) : Tree :=
  phrase "function_declaration" none start (start + 20) [token "function" start,
    phrase "identifier" (some "name") (start + 9) (start + 15) [],
    phrase "formal_parameters" (some "parameters") (start + 15) (start + 17)
      [token "(" (start + 15), token ")" (start + 16)],
    phrase "statement_block" (some "body") (start + 18) (start + 20)
      [token "\x7b" (start + 18), token "\x7d" (start + 19)]]

/-- The tree of `function f() { function helper() {} }`. -/
def nestedFunction : Tree :=
  phrase "program" none 0 37 [phrase "function_declaration" none 0 37 [token "function" 0,
    phrase "identifier" (some "name") 9 10 [],
    phrase "formal_parameters" (some "parameters") 10 12 [token "(" 10, token ")" 11],
    phrase "statement_block" (some "body") 13 37
      [token "\x7b" 13, helperFunction 15, token "\x7d" 36]]]

/-- The tree of `foo(function () { function helper() {} });`. -/
def callback : Tree :=
  phrase "program" none 0 42 [phrase "expression_statement" none 0 42 [
    phrase "call_expression" none 0 41 [phrase "identifier" (some "function") 0 3 [],
      phrase "arguments" (some "arguments") 3 41 [token "(" 3,
        phrase "function_expression" none 4 40 [token "function" 4,
          phrase "formal_parameters" (some "parameters") 13 15 [token "(" 13, token ")" 14],
          phrase "statement_block" (some "body") 16 40
            [token "\x7b" 16, helperFunction 18, token "\x7d" 39]],
        token ")" 40]],
    token ";" 41]]

/-- The body of a class is in the field for it. -/
theorem Node.IsClassBody.field {n : Node} (h : n.IsClassBody) : n.tree.field = some "body" := by
  obtain ⟨c, -, hbody⟩ := h
  have hfield := List.find?_some hbody
  exact beq_iff_eq.mp hfield

end Tree

/-- The body of the declared function holds another function, and nothing is listed from inside
it. -/
theorem listed_inFunction_iff_nested :
    ∃ f ∈ Tree.nestedFunction.nodes,
      f.tree.isFunction = true ∧ f.ancestors ≠ [] ∧ ¬ f.IsClassBody ∧
        (∃ n ∈ f.descendants, n.tree.isFunction = true) ∧
        ¬ ∃ e ∈ Tree.Entry.listings Tree.nestedFunction.entries, f ∈ e.node.ancestors := by
  obtain ⟨f, hmem, hfunction, hroot, hfield, hinner, hdeclares⟩ :
      ∃ f ∈ Tree.nestedFunction.nodes, f.tree.isFunction = true ∧ f.ancestors ≠ [] ∧
        f.tree.field = none ∧ (∃ n ∈ f.descendants, n.tree.isFunction = true) ∧
        f.tree.declares = true := by decide +kernel
  have hbody : ¬ f.IsClassBody := by
    intro h
    rw [h.field] at hfield
    contradiction
  let source : Source := ⟨"f.js", "function f() \x7b function helper() \x7b\x7d \x7d".toUTF8⟩
  refine ⟨f, hmem, hfunction, hroot, hbody, hinner, fun hlisted => ?_⟩
  obtain ⟨-, hf, -⟩ :=
    ((listed_inFunction_iff source Tree.nestedFunction).2 f hmem hfunction hroot hbody).mp hlisted
  rw [(hf.transparent f List.mem_cons_self).2] at hdeclares
  contradiction

/-- The callback holds a function in its body, and the function is listed. -/
theorem callback_leaks :
    ∃ e ∈ Tree.Entry.listings Tree.callback.entries, e.node.tree.kind = "function_declaration" ∧
      ∃ f ∈ e.node.ancestors, f.tree.kind = "function_expression" ∧ f.tree.isFunction = true := by
  decide +kernel

end GuidedTour
