import GuidedTour.Text.Word

namespace GuidedTour

/-!
# Declarations on a single line

What a line declares is told from its first words, without a grammar.

* `classLine?` — modifiers, one of `class`, `struct`, `object`, and a name;
* `callableLine?` — modifiers, a name, type parameters or none, and an opening parenthesis; the
  line must end as a body begins. A modifier stands as the name where nothing better follows it;
* `indentWidth` — the width of the blanks at the start, a tab counting as four.
-/

/-- The text after a word, if it begins with it. -/
def afterPrefix (word : String) (s : List Char) : Option (List Char) :=
  if word.toList.isPrefixOf s then some (s.drop word.length) else none

/-- The text after at least one blank and all that follow it. -/
def afterBlanks : List Char → Option (List Char)
  | c :: s => if Text.isBlank c then some (Text.trimStart s) else none
  | [] => none

/-- The text after a scope in parentheses, if one stands at its start. -/
def afterScope : List Char → List Char
  | '(' :: s =>
    match s.dropWhile (· != ')') with
    | ')' :: rest => rest
    | _ => '(' :: s
  | s => s

/-- The text after a modifier and the blanks behind it. The word `pub` may carry a scope. -/
def afterModifier (words : List String) (s : List Char) : Option (List Char) :=
  words.findSome? fun word => do
    let rest ← afterPrefix word s
    afterBlanks (if word == "pub" then afterScope rest else rest)

/-- The text after all modifiers at its start; `steps` bounds their number. -/
def afterModifiers (words : List String) : Nat → List Char → List Char
  | 0, s => s
  | steps + 1, s =>
    match afterModifier words s with
    | some rest => afterModifiers words steps rest
    | none => s

/-- A name at the start of a text, and what follows it. -/
def readName? : List Char → Option (List Char × List Char)
  | c :: s =>
    if Text.isNameStart c then
      some (c :: s.takeWhile Text.isNameChar, s.dropWhile Text.isNameChar)
    else none
  | [] => none

/-- Words that may stand before a class. -/
def classModifiers : List String :=
  ["export", "default", "public", "private", "protected", "internal", "abstract", "final",
    "sealed", "static", "pub", "data", "open"]

/-- Words that open a class. -/
def classWords : List String := ["class", "struct", "object"]

/-- The name of the class that a line declares. -/
def classLine? (line : List Char) : Option (List Char) := do
  let s := afterModifiers classModifiers line.length (Text.trimStart line)
  let s ← classWords.findSome? fun word => (afterPrefix word s).bind afterBlanks
  let (name, _) ← readName? s
  pure name

/-- Words that may stand before a function or method. -/
def callableModifiers : List String :=
  ["export", "default", "public", "private", "protected", "internal", "static", "async",
    "override", "virtual", "abstract", "final", "pub", "def", "fn", "func", "function", "fun",
    "sub"]

/-- Names that open control flow and declare nothing. -/
def controlWords : List String :=
  ["if", "for", "while", "switch", "catch", "return", "with", "elif", "else", "function", "match",
    "loop", "until", "unless", "foreach", "sizeof", "typeof", "new"]

/-- What a line that looks like a function declares. -/
structure Callable where
  name : List Char
  isAsync : Bool
  rest : List Char

/-- The text after type parameters in angle brackets, if some stand at its start. -/
def afterTypeParameters : List Char → List Char
  | '<' :: s =>
    match s.dropWhile (· != '>') with
    | '>' :: rest => rest
    | _ => '<' :: s
  | s => s

/-- A name with type parameters or none and an opening parenthesis. -/
def namedCall? (s : List Char) : Option Callable := do
  let (name, s) ← readName? s
  match Text.trimStart (afterTypeParameters (Text.trimStart s)) with
  | '(' :: rest => pure ⟨name, false, rest⟩
  | _ => none

/-- Whether the word `async` stands between the start of a text and its end `rest`. -/
def marksAsync (s rest : List Char) : Bool :=
  (Text.words (s.take (s.length - rest.length))).contains "async".toList

/-- A call after as many modifiers as possible, of which there are at most `steps`. -/
def modifiedCall? : Nat → List Char → Option Callable
  | 0, s => namedCall? s
  | steps + 1, s =>
    match afterModifier callableModifiers s with
    | none => namedCall? s
    | some rest =>
      match modifiedCall? steps rest with
      | some call => some { call with isAsync := call.isAsync || marksAsync s rest }
      | none => namedCall? s

/-- Whether a line ends as a body begins. -/
def opensBody (rest : List Char) : Bool :=
  match (Text.trimEnd rest).reverse with
  | '\x7b' :: _ => true
  | ':' :: _ => true
  | '>' :: '=' :: _ => true
  | _ => false

/-- The function or method that a line declares. -/
def callableLine? (line : List Char) : Option Callable :=
  match modifiedCall? line.length (Text.trimStart line) with
  | some call =>
    if controlWords.contains (String.ofList call.name) || !opensBody call.rest then none
    else some call
  | none => none

/-- The width of the blanks at the start of a line. -/
def indentWidth (line : List Char) : Nat :=
  (line.takeWhile Text.isBlank).foldl (fun width c => width + if c == '\t' then 4 else 1) 0

end GuidedTour
