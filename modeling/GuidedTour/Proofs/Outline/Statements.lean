import GuidedTour.Outline.FromTree
import GuidedTour.Proofs.Tree.Topmost

namespace GuidedTour

/-!
# The statements of a file

The walk that gathers import and export statements goes no further where it finds one. So the
statements are the texts of the topmost nodes that are such statements.

* `Tree.isStatement` — nodes that are import or export statements;
* `Tree.ownStatement` — what such a node is by itself;
* `Tree.imports_eq_flatMap`, `Tree.exports_eq_flatMap` — the statements of a tree, in preorder;
* `bareWords` — lines of which no statement is kept.
-/

namespace Tree

/-- Whether a node is an import or an export statement. -/
def isStatement (t : Tree) : Bool := isImportKind t.kind || isExportKind t.kind

/-- The statement that a node is by itself. -/
def ownStatement (source : Source) (t : Tree) : Statements :=
  if isImportKind t.kind then ⟨(t.importText? source).toList, []⟩
  else ⟨[], (t.exportText? source).toList⟩

/-! Imports and exports are gathered alike; `part` is one or the other. -/

section Part

variable {part : Statements → List String} (hnil : part ⟨[], []⟩ = [])
  (happend : ∀ a b, part (a ++ b) = part a ++ part b)

include hnil happend

/-- The walk over several trees gives for each named one its own statement, or, where it is none,
what the walk finds below it. -/
theorem part_statementsOf (source : Source) (trees : List Tree) :
    part (statementsOf source trees) = trees.flatMap fun c =>
      if c.isNamed = false then [] else if c.isStatement then part (c.ownStatement source)
        else part (c.statements source) := by
  induction trees with
  | nil => exact hnil
  | cons c rest ih =>
    rw [statementsOf, happend, ih, List.flatMap_cons]
    congr 1
    cases c.isNamed with
    | false => exact hnil
    | true =>
      by_cases himport : isImportKind c.kind = true
      · simp [isStatement, ownStatement, himport]
      · by_cases hexport : isExportKind c.kind = true <;>
          simp [isStatement, ownStatement, himport, hexport]

/-- The walk that gathers statements comes to the nodes that are statements. -/
theorem part_statements_reached (source : Source) (n : Node) :
    part (n.tree.statements source) =
      (n.reached isStatement).flatMap fun m => part (m.tree.ownStatement source) := by
  induction n using Node.childrenInduction with
  | step n ih =>
    have hstatements : n.tree.statements source = statementsOf source n.tree.children := by
      cases n.tree with
      | node _ _ _ _ children => rfl
    rw [Node.reached_eq, hstatements, part_statementsOf hnil happend, ← Node.map_tree_children,
      List.flatMap_map, List.flatMap_assoc]
    -- Both walks go child by child, so it is enough to compare what they do at one child.
    refine List.flatMap_congr fun c hc => ?_
    split
    · rfl
    · split
      · rw [List.flatMap_singleton]
      · exact ih c hc

/-- The statements of a tree are those of its topmost statement nodes. -/
theorem part_statements (source : Source) (t : Tree) :
    part (t.statements source) =
      (t.topmost isStatement).flatMap fun n => part (n.tree.ownStatement source) := by
  rw [topmost_eq_reached]
  exact part_statements_reached hnil happend source (Node.root t)

end Part

/-- The import statements of a tree are those of its topmost statements, in preorder. -/
theorem imports_eq_flatMap (source : Source) (t : Tree) :
    (t.statements source).imports =
      (t.topmost isStatement).flatMap fun n => (n.tree.ownStatement source).imports :=
  part_statements rfl (fun _ _ => rfl) source t

/-- The export statements of a tree are those of its topmost statements, in preorder. -/
theorem exports_eq_flatMap (source : Source) (t : Tree) :
    (t.statements source).exports =
      (t.topmost isStatement).flatMap fun n => (n.tree.ownStatement source).exports :=
  part_statements rfl (fun _ _ => rfl) source t

end Tree

/-! ### Lines of statements -/

/-- What is no statement: nothing, and bare keywords. -/
def bareWords : List String := ["", "import", "export"]

/-- A statement is its cleaned text, unless nothing but a bare word is left of it. -/
theorem statementText_eq (s : List Char) :
    Tree.statementText s =
      if String.ofList (Text.trim (Tree.dropSemicolons s)) ∈ bareWords then none
      else some (String.ofList (Text.trim (Tree.dropSemicolons s))) := by
  simp only [Tree.statementText, bareWords, List.mem_cons, List.not_mem_nil, or_false,
    Bool.or_eq_true, beq_iff_eq, or_assoc]

end GuidedTour
