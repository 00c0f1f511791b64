import GuidedTour.Language
import GuidedTour.Outline.FromLines
import GuidedTour.Outline.FromTree

namespace GuidedTour

/-!
# The outline of any file

* `ParseFailure` — why there is no syntax tree for a file;
* `Parser` — the syntax trees at hand;
* `Outline.ofFile` — the outline of a file: from its tree where there is one, else from its lines.
-/

/-- Why there is no syntax tree for a file. -/
inductive ParseFailure where
  | noGrammar (language : String)
  | badGrammar (detail : String)
  | unparsable (detail : String)
  deriving DecidableEq, Repr

/-- A sentence on the failure. -/
def ParseFailure.message : ParseFailure → String
  | noGrammar language => "No grammar registered for language: " ++ language
  | badGrammar detail => "Tree-sitter error: " ++ detail
  | unparsable detail => "Parse error: " ++ detail

/-- The syntax tree of a file, by the tag of its language and its path. -/
abbrev Parser := String → String → Except ParseFailure Tree

/-- The parser whose trees are known beforehand. -/
def Parser.ofTrees (grammars : Grammars) (trees : List (String × Tree)) : Parser :=
  fun language file =>
    if grammars.supports language then
      match trees.lookup file with
      | some tree => .ok tree
      | none => .error (.unparsable "Failed to parse source code")
    else .error (.noGrammar language)

/-- The outline of a file. -/
def Outline.ofFile (parser : Parser) (file language content : String) : Outline :=
  match parser language file with
  | .ok tree => Outline.ofTree file language content tree
  | .error _ => Outline.ofLines file language content

end GuidedTour
