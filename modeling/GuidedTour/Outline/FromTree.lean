import GuidedTour.Outline.Basic
import GuidedTour.Tree.Kind

namespace GuidedTour

/-!
# The outline of a parsed file

* `Tree.elements` — the declarations below a node, from the top down. A node that declares nothing
  is looked through; a declaration is not, so that nothing inside a function is listed;
* `Tree.declaration` — the elements that one declaring node stands for;
* `Tree.statements` — the import and export statements below a node. A statement is not looked
  into, so that none is listed again through a part of it;
* `Outline.ofTree` — the outline of a file.
-/

/-- The file that a tree was parsed from. -/
structure Source where
  file : String
  bytes : ByteArray

namespace Tree

/-- Kinds of nodes that hold the name of a declaration. -/
def nameKinds : List String := ["identifier", "name", "type_identifier", "property_identifier"]

/-- The name of a declaration: what stands in its name field, else its first child that is a
name. -/
def symbolName? (source : Source) (t : Tree) : Option String :=
  match t.inField? "name" with
  | some name => name.text? source.bytes
  | none => (t.namedChildren.find? fun child => nameKinds.contains child.kind).bind
      fun child => child.text? source.bytes

/-- The type that a block of methods belongs to, without its type arguments. -/
def implTarget? (source : Source) (t : Tree) : Option String :=
  (t.inField? "type").bind fun target =>
    if target.kind == "generic_type" then
      (target.inField? "type").bind fun inner => inner.text? source.bytes
    else target.text? source.bytes

/-- Whether a node is marked asynchronous by one of its tokens or of its modifiers. -/
def isAsync (t : Tree) : Bool :=
  t.children.any fun child =>
    child.kind == "async" ||
      (child.kind == "function_modifiers" && child.children.any fun m => m.kind == "async")

/-- The declaration that a wrapper carries. -/
def carried? (t : Tree) : Option Tree :=
  match t.inField? "declaration" with
  | some inner => some inner
  | none =>
    match t.inField? "definition" with
    | some inner => some inner
    | none => t.namedChildren.find? fun child => !(["decorator", "comment"].contains child.kind)

theorem size_lt_of_carried? {inner t : Tree} (h : t.carried? = some inner) :
    inner.size < t.size := by
  unfold carried? at h
  split at h
  · cases h; exact size_lt_of_inField? ‹_›
  · split at h
    · cases h; exact size_lt_of_inField? ‹_›
    · exact size_lt_of_mem_namedChildren (List.mem_of_find?_eq_some h)

/-- A node as an element without children. -/
def leaf (source : Source) (kind : ElementKind) (t : Tree) : Element :=
  .leaf kind ((t.symbolName? source).getD Element.anonymous) source.file t.startLine t.endLine

/-- The kind of a function, by its marks. -/
def functionKind (t : Tree) : ElementKind := if t.isAsync then .asyncFunction else .function

/-- The kind of a binding, by the value it binds. -/
def bindingKind (t : Tree) : ElementKind :=
  match t.inField? "value" with
  | some value => if isFunctionLiteral value.kind then value.functionKind else .binding
  | none => .binding

/-- The nodes that a declaration of variables binds; without declarators it binds by itself. -/
def bindings (t : Tree) : List Tree :=
  let declarators := t.namedChildren.filter fun child => child.kind == "variable_declarator"
  if declarators.isEmpty then [t] else declarators

/-- A member of a class without its wrapper. -/
def member? (t : Tree) : Option Tree := if t.nodeClass == .wrapper then t.carried? else some t

theorem size_le_of_member? {m t : Tree} (h : t.member? = some m) : m.size ≤ t.size := by
  unfold member? at h
  split at h
  · exact Nat.le_of_lt (size_lt_of_carried? h)
  · cases h; exact Nat.le_refl _

/-- The name of a class; a block of methods is named for its type. -/
def className (source : Source) (t : Tree) : String :=
  (if t.kind == "impl_item" then t.implTarget? source else t.symbolName? source).getD
    Element.anonymous

/-- The members of a class, without their wrappers. -/
def classMembers (t : Tree) : List Tree :=
  match t.inField? "body" with
  | none => []
  | some body => body.namedChildren.filterMap member?

theorem size_lt_of_mem_classMembers {m t : Tree} (h : m ∈ t.classMembers) : m.size < t.size := by
  unfold classMembers at h
  split at h
  · simp at h
  · obtain ⟨child, hc, hm⟩ := List.mem_filterMap.1 h
    exact Nat.lt_of_le_of_lt (size_le_of_member? hm)
      (Nat.lt_trans (size_lt_of_mem_namedChildren hc) (size_lt_of_inField? ‹_›))

/-- A class with its methods and nested classes; other members are passed over. -/
def classElement (source : Source) (t : Tree) : Element :=
  { Element.leaf .classLike (t.className source) source.file t.startLine t.endLine with
    children := t.classMembers.attach.flatMap fun ⟨m, _⟩ =>
      if m.nodeClass == .classLike then [classElement source m]
      else if m.nodeClass.isCallable then [m.leaf source .method]
      else [] }
termination_by t.size
decreasing_by exact size_lt_of_mem_classMembers ‹_›

/-- The elements that a declaring node stands for. A wrapper stands for what it carries, if that
declares something. -/
def declaration (source : Source) (t : Tree) : List Element :=
  match t.nodeClass with
  | .classLike => [t.classElement source]
  | .function => [t.leaf source t.functionKind]
  | .method => [t.leaf source .method]
  | .interface => [t.leaf source .interface]
  | .enumeration => [t.leaf source .enumeration]
  | .binding => t.bindings.map fun b => b.leaf source b.bindingKind
  | .wrapper =>
    match _h : t.carried? with
    | some inner => if inner.nodeClass == .other then [] else declaration source inner
    | none => []
  | .other => []
termination_by t.size
decreasing_by exact size_lt_of_carried? ‹_›

mutual

/-- The elements declared below a node. -/
def elements (source : Source) : Tree → List Element
  | node _ _ _ _ children => elementsOf source children

/-- The elements declared by the named nodes of a list or below them. -/
def elementsOf (source : Source) : List Tree → List Element
  | [] => []
  | t :: rest =>
    (if !t.isNamed then []
      else if t.nodeClass == .other then elements source t
      else t.declaration source) ++ elementsOf source rest

end

/-- The longest import statement that is kept. -/
def maxStatement : Nat := 240

/-- The text without the semicolons at its end. -/
def dropSemicolons (s : List Char) : List Char := (s.reverse.dropWhile (· == ';')).reverse

/-- An import statement on one line with single spaces, cut to the greatest length. -/
def importLine (s : List Char) : List Char :=
  Text.truncate maxStatement (Text.joinWith [' '] (Text.words (Text.trim s)))

/-- The first line of an export statement. -/
def exportLine (s : List Char) : List Char :=
  let s := Text.trim s
  Text.trim ((Text.lines s).head?.getD s)

/-- What is kept of a statement; nothing of a bare keyword. -/
def statementText (line : List Char) : Option String :=
  let cleaned := String.ofList (Text.trim (dropSemicolons line))
  if cleaned == "" || cleaned == "import" || cleaned == "export" then none else some cleaned

/-- The import statement of a node. -/
def importText? (source : Source) (t : Tree) : Option String :=
  (t.text? source.bytes).bind fun s => statementText (importLine s.toList)

/-- The export statement of a node. -/
def exportText? (source : Source) (t : Tree) : Option String :=
  (t.text? source.bytes).bind fun s => statementText (exportLine s.toList)

/-- Import and export statements. -/
structure Statements where
  imports : List String
  exports : List String

instance : Append Statements := ⟨fun a b => ⟨a.imports ++ b.imports, a.exports ++ b.exports⟩⟩

mutual

/-- The statements below a node. -/
def statements (source : Source) : Tree → Statements
  | node _ _ _ _ children => statementsOf source children

/-- The statements that the named nodes of a list are, or that stand below them. -/
def statementsOf (source : Source) : List Tree → Statements
  | [] => ⟨[], []⟩
  | t :: rest =>
    (if !t.isNamed then ⟨[], []⟩
      else if isImportKind t.kind then ⟨(t.importText? source).toList, []⟩
      else if isExportKind t.kind then ⟨[], (t.exportText? source).toList⟩
      else statements source t) ++ statementsOf source rest

end

end Tree

/-- The outline of a file that a grammar parsed. -/
def Outline.ofTree (file language content : String) (t : Tree) : Outline :=
  let source : Source := ⟨file, content.toUTF8⟩
  let statements := t.statements source
  { file, language
    elements := t.elements source
    imports := statements.imports
    exports := statements.exports
    lineCount := (Text.lines content.toList).length }

end GuidedTour
