import GuidedTour.Outline.FromLines
import GuidedTour.Proofs.Outline.Nesting

namespace GuidedTour

/-!
# Where methods stand in an outline

An outline told from lines has methods in classes only. The outline of a tree has a method by itself
for every method definition that no declaration is around, as in an object literal.

* `Element.IsScanned` — a function, or a class with methods;
* `LineScan.IsSound` — a scan has found nothing else, and what is open is a class;
* `LineScan.IsSound.line`, `LineScan.IsSound.lines` — one line keeps it so, and so do all;
* `Node.methodDefinition?` — the method definition that a node is, its wrappers aside;
* `Tree.filter_method_elements` — the methods outside of classes, told from the nodes;
* `methods_inOutline` — the methods of both kinds of outlines;
* `objectMethod_standsAlone` — the method of an object literal is listed by itself.
-/

/-! ### Outlines told from lines -/

/-- A function, or a class whose children are methods; methods and functions hold nothing. -/
structure Element.IsScanned (e : Element) : Prop where
  kind : e.kind = .classLike ∨ e.kind = .function ∨ e.kind = .asyncFunction
  owner : e.children ≠ [] → e.kind = .classLike
  methods : ∀ child ∈ e.children, child.kind = .method ∧ child.children = []

namespace Element.IsScanned

variable {e : Element}

/-- An element without children is scanned. -/
theorem leaf {kind : ElementKind} (name file : String) (number : Nat)
    (hkind : kind = .classLike ∨ kind = .function ∨ kind = .asyncFunction) :
    (Element.leaf kind name file number number).IsScanned where
  kind := hkind
  owner := fun h => absurd rfl h
  methods := fun _ h => absurd h List.not_mem_nil

/-- A class may get one more method. -/
theorem withMethod (h : e.IsScanned) (hclass : e.kind = .classLike) (name file : String)
    (number : Nat) : (e.withChild (.leaf .method name file number number)).IsScanned where
  kind := h.kind
  owner := fun _ => hclass
  methods := by
    intro child hchild
    rw [withChild, List.mem_append, List.mem_singleton] at hchild
    obtain hchild | rfl := hchild
    · exact h.methods child hchild
    · exact ⟨rfl, rfl⟩

/-- Of the element and what it holds, only a class has children. -/
theorem kind_of_mem_listing {d : Element} (h : e.IsScanned) (hd : d ∈ e.listing)
    (hchildren : d.children ≠ []) : d.kind = .classLike := by
  rw [listing_eq, listings_eq_flatMap, List.mem_cons, List.mem_flatMap] at hd
  obtain rfl | ⟨child, hchild, hd⟩ := hd
  · exact h.owner hchildren
  · obtain ⟨-, hleaf⟩ := h.methods child hchild
    rw [listing_eq, hleaf] at hd
    obtain rfl := List.mem_singleton.mp hd
    exact absurd hleaf hchildren

end Element.IsScanned

namespace LineScan

variable {scan : LineScan} {file : String} {number indent : Nat}

/-- A scan has found functions and classes with methods, and what is open is a class. -/
structure IsSound (scan : LineScan) : Prop where
  elements : ∀ e ∈ scan.elements, e.IsScanned
  opened : ∀ o, scan.opened = some o → o.element.kind = .classLike

theorem mem_elements {e : Element} :
    e ∈ scan.elements ↔ e ∈ scan.closed ∨ ∃ o, scan.opened = some o ∧ o.element = e := by
  rw [elements, List.mem_append, Option.mem_toList, Option.map_eq_some_iff]

theorem IsSound.start : LineScan.start.IsSound where
  elements := fun _ h => absurd h List.not_mem_nil
  opened := fun _ h => nomatch h

/-- A scan stays sound when a class is opened. -/
theorem IsSound.openClass (h : scan.IsSound) (name : List Char) :
    (scan.openClass file number indent name).IsSound where
  elements := by
    intro e he
    obtain he | ⟨o, ho, rfl⟩ := mem_elements.mp he
    · exact h.elements e he
    · obtain rfl := Option.some.inj ho
      exact .leaf _ file number (.inl rfl)
  opened := by
    intro o ho
    obtain rfl := Option.some.inj ho
    rfl

/-- A scan stays sound when a method is put into the open class. -/
theorem IsSound.addMethod {opened : OpenClass} (h : scan.IsSound)
    (hopened : scan.opened = some opened) (name : String) :
    (scan.addMethod opened (.leaf .method name file number number)).IsSound where
  elements := by
    intro e he
    obtain he | ⟨o, ho, rfl⟩ := mem_elements.mp he
    · exact h.elements e (mem_elements.mpr (.inl he))
    · obtain rfl := Option.some.inj ho
      -- the class was open before, and so it was among the elements
      have hscanned : opened.element.IsScanned :=
        h.elements _ (mem_elements.mpr (.inr ⟨opened, hopened, rfl⟩))
      exact hscanned.withMethod (h.opened opened hopened) name file number
  opened := by
    intro o ho
    obtain rfl := Option.some.inj ho
    exact h.opened opened hopened

/-- What stands for itself closes the class, which stays as it is. -/
theorem IsSound.close {e : Element} (h : scan.IsSound) (he : e.IsScanned) :
    IsSound ⟨scan.elements ++ [e], none⟩ where
  elements := by
    intro d hd
    obtain hd | ⟨o, ho, -⟩ := mem_elements.mp hd
    · rw [List.mem_append, List.mem_singleton] at hd
      obtain hd | rfl := hd
      · exact h.elements d hd
      · exact he
    · exact nomatch ho
  opened := fun _ ho => nomatch ho

/-- A scan stays sound when a callable is listed, as a method or by itself. -/
theorem IsSound.addCallable (h : scan.IsSound) (call : Callable) :
    (scan.addCallable file number indent call).IsSound := by
  have hkind : (if call.isAsync then ElementKind.asyncFunction else .function) = .function ∨
      (if call.isAsync then ElementKind.asyncFunction else .function) = .asyncFunction := by
    cases call.isAsync with
    | true => exact .inr rfl
    | false => exact .inl rfl
  have halone := h.close (.leaf (String.ofList call.name) file number (.inr hkind))
  rw [LineScan.addCallable]
  split
  · next opened hopened =>
    split
    · exact h.addMethod hopened _
    · exact halone
  · exact halone

/-- One line. -/
theorem IsSound.line (h : scan.IsSound) (l : List Char) : (scan.line file number l).IsSound := by
  rw [LineScan.line]
  split
  · exact h.openClass _
  · split
    · exact h.addCallable _
    · exact h

/-- All lines. -/
theorem IsSound.lines (h : scan.IsSound) (ls : List (List Char)) :
    (scan.lines file number ls).IsSound := by
  induction ls generalizing scan number with
  | nil => exact h
  | cons l rest ih => exact ih (h.line l)

end LineScan

/-- An outline told from lines has functions, and classes with methods. -/
theorem Outline.isScanned_of_mem_ofLines {file language content : String} {e : Element}
    (h : e ∈ (Outline.ofLines file language content).elements) : e.IsScanned :=
  (LineScan.IsSound.start.lines _).elements e h

/-! ### Outlines of trees -/

namespace Tree

namespace Node

variable {n : Node}

/-- The method definition that a node is, or that it carries in its wrappers. -/
def methodDefinition? (n : Node) : Option Node :=
  match n.tree.nodeClass with
  | .method => some n
  | .wrapper =>
    match _h : n.carried? with
    | some inner => inner.methodDefinition?
    | none => none
  | _ => none
termination_by n.tree.size
decreasing_by exact size_lt_of_mem_children (mem_children_of_carried? ‹_›)

/-- What is neither a method definition nor a wrapper does not stand for a method. -/
theorem kind_ne_method {e : Entry} (he : e ∈ n.contribution) (hmethod : n.tree.nodeClass ≠ .method)
    (hwrapper : n.tree.nodeClass ≠ .wrapper) : e.kind ≠ .method := by
  -- Most nodes stand for one entry of a kind of their own.
  have hself : ∀ kind members, kind ≠ .method → e ∈ [Entry.mk n kind members] →
      e.kind ≠ .method := by
    intro kind members hkind he
    rw [List.mem_singleton.mp he]
    exact hkind
  rw [contribution] at he
  split at he
  · rw [classEntry_eq] at he
    exact hself _ _ (by decide) he
  · exact hself _ _ (functionKind_ne _ (by decide)) he
  · contradiction
  · exact hself _ _ (by decide) he
  · exact hself _ _ (by decide) he
  · obtain ⟨b, -, rfl⟩ := List.mem_map.mp he
    exact bindingKind_ne _ (by decide)
  · contradiction
  · exact absurd he List.not_mem_nil

/-- A declaring node stands for a method exactly if it is a method definition. -/
theorem filter_method_contribution (n : Node) :
    n.contribution.filter (fun e => e.kind = .method) =
      n.methodDefinition?.toList.map fun m => .mk m .method [] := by
  -- A method stands for itself and a wrapper for what it carries; nothing else stands for a method.
  fun_induction methodDefinition? n with
  | case1 n h =>
    rw [contribution]
    simp only [h]
    rfl
  | case2 n h inner hinner ih =>
    rw [← ih, contribution]
    simp only [h]
    split
    · next carried hcarried =>
      obtain rfl : inner = carried := Option.some.inj (hinner.symm.trans hcarried)
      rfl
    · next hcarried => rw [hinner] at hcarried; contradiction
  | case3 n h hinner =>
    rw [contribution]
    simp only [h]
    split
    · next carried hcarried => rw [hinner] at hcarried; contradiction
    · rfl
  | case4 n hmethod hwrapper =>
    rw [Option.toList_none, List.map_nil, List.filter_eq_nil_iff]
    exact fun e he => by simpa using kind_ne_method he hmethod hwrapper

end Node

/-- The methods outside of classes are the topmost nodes that are method definitions, in preorder. -/
theorem filter_method_elements (source : Source) (t : Tree) :
    (t.elements source).filter (fun e => e.kind = .method) =
      ((t.topmost declares).filterMap Node.methodDefinition?).map
        fun m => m.tree.leaf source .method := by
  have hentries : t.entries.filter (fun e => e.kind = .method) =
      ((t.topmost declares).filterMap Node.methodDefinition?).map fun m => .mk m .method [] := by
    rw [entries, List.filter_flatMap, List.filterMap_eq_flatMap_toList, List.map_flatMap]
    exact List.flatMap_congr fun n _ => n.filter_method_contribution
  -- an element is of the kind of its entry
  have hkind : (fun e : Element => decide (e.kind = .method)) ∘ Entry.element source =
      fun e => decide (e.kind = .method) := by
    funext e
    rw [Function.comp_apply, Entry.kind_element]
  rw [elements_eq_map_entries, List.filter_map, hkind, hentries, List.map_map]
  exact List.map_congr_left fun m _ => Node.element_leaf source (by decide) m

end Tree

/-- **Where methods stand.** In an outline told from lines no method stands outside of a class. In
the outline of a tree, those outside of a class are the topmost nodes that are method definitions. In
both, only classes have children. -/
theorem methods_inOutline (file language content : String) (t : Tree) :
    (∀ e ∈ (Outline.ofLines file language content).elements, e.kind ≠ .method) ∧
      (Outline.ofTree file language content t).elements.filter (fun e => e.kind = .method) =
        ((t.topmost Tree.declares).filterMap Tree.Node.methodDefinition?).map
          (fun m => m.tree.leaf ⟨file, content.toUTF8⟩ .method) ∧
      ∀ outline ∈ [Outline.ofLines file language content, Outline.ofTree file language content t],
        ∀ e ∈ Element.listings outline.elements, e.children ≠ [] → e.kind = .classLike := by
  refine ⟨fun e he => ?alone, Tree.filter_method_elements _ t, fun outline hmem e he hchildren => ?_⟩
  case alone =>
    obtain h | h | h := (Outline.isScanned_of_mem_ofLines he).kind <;> rw [h] <;> decide
  rw [List.mem_pair] at hmem
  obtain rfl | rfl := hmem
  · rw [Element.listings_eq_flatMap, List.mem_flatMap] at he
    obtain ⟨top, htop, he⟩ := he
    exact (Outline.isScanned_of_mem_ofLines htop).kind_of_mem_listing he hchildren
  · exact Tree.kind_of_children_ne_nil he hchildren

/-- Told from lines as from the tree, the class has a child. -/
theorem methods_inOutline_class :
    (∃ e ∈ Element.listings (Outline.ofLines "a.js" "javascript" classText).elements,
        e.children ≠ [] ∧ e.kind = .classLike) ∧
      ∃ e ∈ Element.listings
          (Outline.ofTree "a.js" "javascript" classText Tree.classOverRows).elements,
        e.children ≠ [] ∧ e.kind = .classLike := by
  have hclass := (methods_inOutline "a.js" "javascript" classText Tree.classOverRows).2.2
  constructor
  · obtain ⟨e, he, hchildren⟩ :
        ∃ e ∈ Element.listings (Outline.ofLines "a.js" "javascript" classText).elements,
          e.children ≠ [] := by decide +kernel
    exact ⟨e, he, hchildren, hclass _ List.mem_cons_self e he hchildren⟩
  · obtain ⟨e, he, hchildren⟩ :
        ∃ e ∈ Element.listings
            (Outline.ofTree "a.js" "javascript" classText Tree.classOverRows).elements,
          e.children ≠ [] := by decide +kernel
    exact ⟨e, he, hchildren, hclass _ (List.mem_cons_of_mem _ List.mem_cons_self) e he hchildren⟩

/-- The tree of `o = { m() {} };`. -/
def Tree.objectMethod : Tree :=
  phrase "program" none 0 15 [phrase "expression_statement" none 0 15 [
    phrase "assignment_expression" none 0 14 [phrase "identifier" (some "left") 0 1 [],
      token "=" 2,
      phrase "object" (some "right") 4 14 [token "\x7b" 4,
        phrase "method_definition" none 6 12 [phrase "property_identifier" (some "name") 6 7 [],
          phrase "formal_parameters" (some "parameters") 7 9 [token "(" 7, token ")" 8],
          phrase "statement_block" (some "body") 10 12 [token "\x7b" 10, token "\x7d" 11]],
        token "\x7d" 13]],
    token ";" 14]]

/-- A method of an object literal is listed outside of any class. -/
theorem objectMethod_standsAlone :
    ((Outline.ofTree "o.js" "javascript" "o = \x7b m() \x7b\x7d \x7d;"
      Tree.objectMethod).elements.map fun e => (e.kind, e.name)) = [(.method, "m")] := by
  decide +kernel

end GuidedTour
