namespace GuidedTour

/-!
# Syntax trees

* `Tree` — a node of a parsed file: its kind, whether the grammar names it, the field of its parent
  it stands in, the bytes and rows it covers, and its children;
* `Tree.ofPreorder?` — the tree of a list of nodes in preorder, each with its depth;
* `Tree.namedChildren`, `Tree.inField?` — the children an outline looks at;
* `Tree.text?` — the text a node covers.

`Tree.size` bounds every walk: `size_lt_of_mem_children` says that a child is smaller than its tree.
-/

/-- The bytes and rows a node covers. Rows are counted from 0. -/
structure Span where
  startByte : Nat
  endByte : Nat
  startRow : Nat
  endRow : Nat
  deriving DecidableEq, Repr, Inhabited

/-- A node of a syntax tree. -/
inductive Tree where
  | node (kind : String) (isNamed : Bool) (field : Option String) (span : Span)
      (children : List Tree)
  deriving Inhabited

namespace Tree

/-- What kind of node it is. An anonymous token has its text as kind. -/
def kind : Tree → String
  | node kind _ _ _ _ => kind

/-- Whether the grammar names the node. -/
def isNamed : Tree → Bool
  | node _ isNamed _ _ _ => isNamed

/-- The field of its parent that the node stands in. -/
def field : Tree → Option String
  | node _ _ field _ _ => field

/-- The bytes and rows of the node. -/
def span : Tree → Span
  | node _ _ _ span _ => span

/-- The nodes directly below. -/
def children : Tree → List Tree
  | node _ _ _ _ children => children

/-- The nodes directly below that the grammar names. -/
def namedChildren (t : Tree) : List Tree := t.children.filter isNamed

/-- The first child in a field. -/
def inField? (t : Tree) (name : String) : Option Tree :=
  t.children.find? fun child => child.field == some name

/-- The first and the last line of the node, counted from 1. -/
def startLine (t : Tree) : Nat := t.span.startRow + 1

@[inherit_doc startLine]
def endLine (t : Tree) : Nat := t.span.endRow + 1

/-- The text that a node covers in the bytes of its file. -/
def text? (bytes : ByteArray) (t : Tree) : Option String :=
  String.fromUTF8? (bytes.extract t.span.startByte t.span.endByte)

mutual

/-- How many nodes a tree has. -/
def size : Tree → Nat
  | node _ _ _ _ children => sizes children + 1

/-- How many nodes the trees of a list have. -/
def sizes : List Tree → Nat
  | [] => 0
  | t :: rest => size t + sizes rest

end

theorem size_le_sizes_of_mem {t : Tree} {ts : List Tree} (h : t ∈ ts) : t.size ≤ sizes ts := by
  induction h with
  | head => simp [sizes]
  | tail _ _ ih => simp only [sizes]; omega

theorem size_lt_of_mem_children {child t : Tree} (h : child ∈ t.children) :
    child.size < t.size := by
  cases t with
  | node _ _ _ _ children =>
    have := size_le_sizes_of_mem (show child ∈ children from h)
    simp only [size]; omega

theorem size_lt_of_mem_namedChildren {child t : Tree} (h : child ∈ t.namedChildren) :
    child.size < t.size :=
  size_lt_of_mem_children (List.mem_filter.1 h).1

theorem size_lt_of_inField? {child t : Tree} {name : String} (h : t.inField? name = some child) :
    child.size < t.size :=
  size_lt_of_mem_children (List.mem_of_find?_eq_some h)

/-- A node without its children, at a depth. -/
structure Row where
  depth : Nat
  kind : String
  isNamed : Bool
  field : Option String
  span : Span

/-- Puts a node before the trees that follow it in preorder: those that are deeper are its
children. -/
def placeRow (row : Row) (following : List (Nat × Tree)) : List (Nat × Tree) :=
  let below := following.takeWhile fun entry => row.depth < entry.1
  let others := following.dropWhile fun entry => row.depth < entry.1
  (row.depth, node row.kind row.isNamed row.field row.span (below.map Prod.snd)) :: others

/-- The tree whose nodes in preorder are the rows. -/
def ofPreorder? (rows : List Row) : Option Tree :=
  match rows.foldr placeRow [] with
  | [(_, t)] => some t
  | _ => none

end Tree

end GuidedTour
