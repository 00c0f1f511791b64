import GuidedTour.Path

namespace GuidedTour

/-!
# Languages

* `Language.ofExtension`, `Language.ofPath` — the language a file name speaks of;
* `Language.tag` — the word for it in outlines and in the set of grammars.
-/

/-- The languages told apart by file extension. -/
inductive Language where
  | rust | python | javaScript | javaScriptReact | typeScript | typeScriptReact | go | java
  | c | cPlusPlus | cSharp | ruby | swift | kotlin | php | unknown
  deriving DecidableEq, Repr

namespace Language

/-- The languages with their extensions. -/
def table : List (Language × List String) := [
  (rust, ["rs"]),
  (python, ["py", "pyw", "pyi"]),
  (javaScript, ["js", "mjs", "cjs"]),
  (javaScriptReact, ["jsx"]),
  (typeScript, ["ts", "mts", "cts"]),
  (typeScriptReact, ["tsx"]),
  (go, ["go"]),
  (java, ["java"]),
  (c, ["c", "h"]),
  (cPlusPlus, ["cpp", "cc", "cxx", "hpp", "hh", "hxx"]),
  (cSharp, ["cs"]),
  (ruby, ["rb"]),
  (swift, ["swift"]),
  (kotlin, ["kt", "kts"]),
  (php, ["php"])]

/-- The word for a language. -/
def tag : Language → String
  | rust => "rust"
  | python => "python"
  | javaScript => "javascript"
  | javaScriptReact => "javascriptreact"
  | typeScript => "typescript"
  | typeScriptReact => "typescriptreact"
  | go => "go"
  | java => "java"
  | c => "c"
  | cPlusPlus => "cpp"
  | cSharp => "csharp"
  | ruby => "ruby"
  | swift => "swift"
  | kotlin => "kotlin"
  | php => "php"
  | unknown => "plaintext"

/-- The language of an extension, in whatever letter case. -/
def ofExtension (extension : List Char) : Language :=
  let wanted := String.ofList (extension.map Char.toLower)
  match table.find? fun row => row.2.contains wanted with
  | some row => row.1
  | none => unknown

/-- The language of a path. -/
def ofPath (path : List Char) : Language :=
  match Path.extension? path with
  | some extension => ofExtension extension
  | none => unknown

end Language

/-- The tags of the languages that come with a grammar. -/
def bundledGrammars : List Language :=
  [.javaScript, .javaScriptReact, .python, .rust, .typeScript, .typeScriptReact]

/-- The tags for which a grammar is at hand. -/
structure Grammars where
  tags : List String

namespace Grammars

/-- No grammar at all. -/
def empty : Grammars := ⟨[]⟩

/-- Every bundled grammar under its own tag. -/
def bundled : Grammars := ⟨bundledGrammars.map Language.tag⟩

/-- One more tag. A tag that is there already is not repeated. -/
def register (g : Grammars) (tag : String) : Grammars :=
  if g.tags.contains tag then g else ⟨g.tags ++ [tag]⟩

/-- Whether there is a grammar for a tag. -/
def supports (g : Grammars) (tag : String) : Bool := g.tags.contains tag

/-- The tags in order. -/
def sorted (g : Grammars) : List String := g.tags.mergeSort (· ≤ ·)

/-- A character inside quotes. Quotes, backslashes and control characters are escaped. -/
def quotedChar (c : Char) : List Char :=
  if c == '"' || c == '\\' then ['\\', c]
  else if c == '\n' then ['\\', 'n']
  else if c == '\r' then ['\\', 'r']
  else if c == '\t' then ['\\', 't']
  else if c == '\x00' then ['\\', '0']
  else if c.toNat < 32 || (127 ≤ c.toNat && c.toNat < 160) then
    ['\\', 'u', '\x7b'] ++ Nat.toDigits 16 c.toNat ++ ['\x7d']
  else [c]

/-- A text in quotes. -/
def quoted (s : String) : String := "\"" ++ s.mapText (·.flatMap quotedChar) ++ "\""

/-- The tags in one line for a log. -/
def description (g : Grammars) : String :=
  "GrammarRegistry \x7b tags: [" ++ ", ".intercalate (g.sorted.map quoted) ++ "] \x7d"

end Grammars

end GuidedTour
