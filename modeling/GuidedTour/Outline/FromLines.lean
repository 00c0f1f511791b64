import GuidedTour.Outline.Basic
import GuidedTour.Outline.LinePattern

namespace GuidedTour

/-!
# The outline of a file without a grammar

`Outline.ofLines` goes through the lines of a file. A class stays open until a line declares
another class or a function that is not indented deeper; functions indented deeper are its methods.
-/

/-- A class whose methods are being gathered, with its indentation. -/
structure OpenClass where
  element : Element
  indent : Nat

/-- What a run over the lines has found: the elements in order, and the class that is open. -/
structure LineScan where
  closed : List Element
  opened : Option OpenClass

namespace LineScan

/-- The scan before the first line. -/
def start : LineScan := ⟨[], none⟩

/-- The elements so far, the open class among them. -/
def elements (scan : LineScan) : List Element :=
  scan.closed ++ (scan.opened.map OpenClass.element).toList

/-- The scan with one more method in its class. -/
def addMethod (scan : LineScan) (opened : OpenClass) (method : Element) : LineScan :=
  { scan with opened := some { opened with element := opened.element.withChild method } }

/-- A line that declares a class closes the open one and opens another. -/
def openClass (scan : LineScan) (file : String) (number indent : Nat) (name : List Char) :
    LineScan :=
  ⟨scan.elements, some ⟨.leaf .classLike (String.ofList name) file number number, indent⟩⟩

/-- A line that declares a function adds a method to the open class if it is indented deeper, else
closes the class and stands for itself. -/
def addCallable (scan : LineScan) (file : String) (number indent : Nat) (call : Callable) :
    LineScan :=
  let element (kind : ElementKind) := Element.leaf kind (String.ofList call.name) file number number
  let alone : LineScan :=
    ⟨scan.elements ++ [element (if call.isAsync then .asyncFunction else .function)], none⟩
  match scan.opened with
  | some opened =>
    if opened.indent < indent then scan.addMethod opened (element .method) else alone
  | none => alone

/-- One line. -/
def line (file : String) (scan : LineScan) (number : Nat) (line : List Char) : LineScan :=
  match classLine? line with
  | some name => scan.openClass file number (indentWidth line) name
  | none =>
    match callableLine? line with
    | some call => scan.addCallable file number (indentWidth line) call
    | none => scan

/-- The lines from a number on. -/
def lines (file : String) (scan : LineScan) (number : Nat) : List (List Char) → LineScan
  | [] => scan
  | l :: rest => lines file (scan.line file number l) (number + 1) rest

end LineScan

/-- The lines that hold a word, without the blanks around them. -/
def linesWith (word : String) (lines : List (List Char)) : List String :=
  (lines.filter (Text.contains word.toList)).map fun l => String.ofList (Text.trim l)

/-- The outline of a file, told from its lines. -/
def Outline.ofLines (file language content : String) : Outline :=
  let lines := Text.lines content.toList
  { file, language
    elements := (LineScan.start.lines file 1 lines).elements
    imports := linesWith "import " lines
    exports := linesWith "export " lines
    lineCount := lines.length }

end GuidedTour
