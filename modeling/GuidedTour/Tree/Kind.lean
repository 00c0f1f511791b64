import GuidedTour.Tree.Basic
import GuidedTour.Text.Basic

namespace GuidedTour

/-!
# What the kinds of nodes mean

* `NodeClass.ofKind` — the declarations of all grammars under one set of classes;
* `isFunctionLiteral` — values that make a binding a function;
* `isImportKind`, `isExportKind` — statements that are kept as text.
-/

/-- What a node declares. A wrapper carries a declaration (an export, a decorator); what a binding
declares depends on the value it binds. -/
inductive NodeClass where
  | classLike | function | method | interface | enumeration | wrapper | binding | other
  deriving DecidableEq, Repr

namespace NodeClass

/-- The kinds of nodes that belong to a class. -/
def kinds : NodeClass → List String
  | classLike => ["class_declaration", "abstract_class_declaration", "class", "class_definition",
      "struct_item", "impl_item"]
  | function => ["function_declaration", "generator_function_declaration", "function_definition",
      "function_item"]
  | method => ["method_definition", "abstract_method_signature"]
  | interface => ["interface_declaration", "trait_item"]
  | enumeration => ["enum_declaration", "enum_item"]
  | wrapper => ["export_statement", "decorated_definition"]
  | binding => ["lexical_declaration", "variable_declaration", "const_item", "static_item"]
  | other => []

/-- The classes that declare something. -/
def declaring : List NodeClass :=
  [classLike, function, method, interface, enumeration, wrapper, binding]

/-- The class of a kind. -/
def ofKind (kind : String) : NodeClass :=
  match declaring.find? fun c => c.kinds.contains kind with
  | some c => c
  | none => other

/-- Whether a class may own such nodes as methods. -/
def isCallable (c : NodeClass) : Bool := c == function || c == method

end NodeClass

/-- The class of a node. -/
def Tree.nodeClass (t : Tree) : NodeClass := NodeClass.ofKind t.kind

/-- Whether a value is a function. -/
def isFunctionLiteral (kind : String) : Bool :=
  ["arrow_function", "function_expression", "function", "generator_function", "closure_expression",
    "lambda"].contains kind

/-- Whether a node is kept as an import statement. -/
def isImportKind (kind : String) : Bool := kind.hasText "import" || kind == "use_declaration"

/-- Whether a node is kept as an export statement. -/
def isExportKind (kind : String) : Bool := kind.hasText "export"

end GuidedTour
