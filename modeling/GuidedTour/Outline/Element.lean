import GuidedTour.Json.Record

namespace GuidedTour

/-!
# Elements of source files

* `Element` — a named unit of code with the lines it spans; a class holds its methods and nested
  classes as children;
* `Element.leaf` — an element without children, whose end never precedes its start;
* `Element.lineCount`, `Element.containsLine`, `Element.totalCount`;
* `Element.json`, `Element.ofDocument?` — as JSON and back.
-/

/-- What an element is. -/
inductive ElementKind where
  | classLike | function | asyncFunction | method | interface | enumeration | binding | importing
  deriving DecidableEq, Repr

namespace ElementKind

/-- The word for a kind. -/
def word : ElementKind → String
  | classLike => "class"
  | function => "function"
  | asyncFunction => "async-function"
  | method => "method"
  | interface => "interface"
  | enumeration => "enum"
  | binding => "variable"
  | importing => "import"

/-- Every kind. -/
def all : List ElementKind :=
  [classLike, function, asyncFunction, method, interface, enumeration, binding, importing]

/-- The kind that a word stands for. -/
def ofWord? (s : String) : Option ElementKind := all.find? fun kind => kind.word == s

/-- Only a class owns methods. -/
def isClass (kind : ElementKind) : Bool := kind == classLike

end ElementKind

/-- A named unit of code. Lines are counted from 1 and the last one belongs to the element. -/
structure Element where
  kind : ElementKind
  name : String
  file : String
  startLine : Nat
  endLine : Nat
  children : List Element

instance : Inhabited Element := ⟨⟨.binding, "", "", 0, 0, []⟩⟩

namespace Element

/-- The name of a declaration that carries none. -/
def anonymous : String := "<anonymous>"

/-- An element without children; an end before the start is moved to the start. -/
def leaf (kind : ElementKind) (name file : String) (startLine endLine : Nat) : Element :=
  ⟨kind, name, file, startLine, max endLine startLine, []⟩

/-- The element with one more child. -/
def withChild (e child : Element) : Element := { e with children := e.children ++ [child] }

/-- How many lines the element spans, in 64 bits. -/
def lineCount (e : Element) : Nat := (e.endLine - e.startLine + 1) % UInt64.size

/-- Whether a line belongs to the element. -/
def containsLine (e : Element) (line : Nat) : Bool := e.startLine ≤ line && line ≤ e.endLine

mutual

/-- The element and all that is nested in it, counted. -/
def totalCount : Element → Nat
  | ⟨_, _, _, _, _, children⟩ => 1 + totalCounts children

/-- The elements of a list and all that is nested in them, counted. -/
def totalCounts : List Element → Nat
  | [] => 0
  | e :: rest => totalCount e + totalCounts rest

end

mutual

/-- An element as JSON; children are left out where there are none. -/
def json : Element → Json
  | ⟨kind, name, file, startLine, endLine, children⟩ =>
    .object ([("kind", .string kind.word), ("name", .string name), ("file", .string file),
      ("startLine", .nat startLine), ("endLine", .nat endLine)] ++
      if children.isEmpty then [] else [("children", .array (jsons children))])

@[inherit_doc json]
def jsons : List Element → List Json
  | [] => []
  | e :: rest => json e :: jsons rest

end

/-- The fields of an element in their order. -/
def fields : List (List String) :=
  [["kind"], ["name"], ["file"], ["startLine"], ["endLine"], ["children"]]

/-- An element from a document nested at most so deep. -/
def ofDocumentWithin : Nat → Document → Option Element
  | 0, _ => none
  | depth + 1, d => do
    let r ← d.record? fields
    let kind ← r.required "kind" (·.word? ElementKind.ofWord?)
    let name ← r.required "name" (·.text?)
    let file ← r.required "file" (·.text?)
    let startLine ← r.required "startLine" (·.nat? natMax64)
    let endLine ← r.required "endLine" (·.nat? natMax64)
    let children ← r.defaulted "children" [] (·.list? (ofDocumentWithin depth))
    pure ⟨kind, name, file, startLine, endLine, children⟩

end Element

mutual

/-- How many levels a document has. -/
def Document.depth : Document → Nat
  | .array items => Document.depths items + 1
  | .object members => Document.memberDepths members + 1
  | _ => 1

@[inherit_doc Document.depth]
def Document.depths : List Document → Nat
  | [] => 0
  | d :: rest => max d.depth (Document.depths rest)

@[inherit_doc Document.depth]
def Document.memberDepths : List (Option String × Document) → Nat
  | [] => 0
  | (_, d) :: rest => max d.depth (Document.memberDepths rest)

end

/-- An element from a document. -/
def Element.ofDocument? (d : Document) : Option Element := Element.ofDocumentWithin d.depth d

end GuidedTour
