import GuidedTour.Outline.LinePattern

namespace GuidedTour

/-!
# The modules an import statement names

* `quotedModule?` — a module in quotes after `from`, `import` or `require(`, anywhere;
* `dottedModule?` — `from a.b import` or `import a.b` at the start;
* `pathModule?` — `use a::b` at the start, perhaps after `pub`;
* `moduleSpecifiers` — the modules of a list of statements, each one once, as they first occur.
  Every statement is tried in the three ways, and the first that fits decides.
-/

/-- The quotes around a module. -/
def isQuote (c : Char) : Bool := c == '"' || c == '\''

/-- What precedes a quoted module, at the start of a text. -/
def afterImporter (s : List Char) : Option (List Char) :=
  (afterPrefix "from" s).or <| (afterPrefix "import" s).or <|
    (afterPrefix "require" s).bind fun rest =>
      match Text.trimStart rest with
      | '(' :: rest => some rest
      | _ => none

/-- The text up to the next quote, if it is not empty and there is one. -/
def upToQuote (s : List Char) : Option (List Char) :=
  let inside := s.takeWhile fun c => !isQuote c
  if inside.isEmpty || (s.dropWhile fun c => !isQuote c).isEmpty then none else some inside

/-- A quoted module right here. -/
def quotedModuleHere? (s : List Char) : Option (List Char) :=
  match (afterImporter s).map Text.trimStart with
  | some (c :: rest) => if isQuote c then upToQuote rest else none
  | _ => none

/-- The first quoted module of a statement. -/
def quotedModule? : List Char → Option (List Char)
  | [] => none
  | c :: s =>
    match quotedModuleHere? (c :: s) with
    | some found => some found
    | none => quotedModule? s

/-- A run of characters that is not empty, and what follows it. -/
def run? (p : Char → Bool) (s : List Char) : Option (List Char × List Char) :=
  let run := s.takeWhile p
  if run.isEmpty then none else some (run, s.dropWhile p)

/-- The characters of a dotted name. -/
def isDotted (c : Char) : Bool := Text.isWord c || c == '.'

/-- Whether a text goes on with something that cannot lengthen a word. -/
def atWordEnd : List Char → Bool
  | [] => true
  | c :: _ => !Text.isWord c

/-- The module of `from m import`. -/
def fromImport? (s : List Char) : Option (List Char) := do
  let s ← (afterPrefix "from" s).bind afterBlanks
  let (found, s) ← run? isDotted s
  let s ← (afterBlanks s).bind (afterPrefix "import")
  if atWordEnd s then some found else none

/-- The module of `import m`. -/
def plainImport? (s : List Char) : Option (List Char) := do
  let s ← (afterPrefix "import" s).bind afterBlanks
  let (found, _) ← run? isDotted s
  pure found

/-- The module of a statement with dotted names. -/
def dottedModule? (s : List Char) : Option (List Char) :=
  (fromImport? s).or (plainImport? s)

/-- The characters of a path of names. -/
def isPathChar (c : Char) : Bool := Text.isWord c || c == ':'

/-- The module of `use m`. -/
def usePath? (s : List Char) : Option (List Char) := do
  let s ← (afterPrefix "use" s).bind afterBlanks
  let (found, _) ← run? isPathChar s
  pure found

/-- A path backwards, without the pairs of colons at its end. -/
def dropColons : List Char → List Char
  | ':' :: ':' :: s => dropColons s
  | s => s

/-- The module of a statement with a path of names. -/
def pathModule? (s : List Char) : Option (List Char) :=
  let published := (afterPrefix "pub" s).bind fun rest =>
    (afterBlanks (afterScope rest)).bind usePath?
  (published.or (usePath? s)).map fun found => (dropColons found.reverse).reverse

/-- The module that a statement names. -/
def moduleSpecifier? (statement : String) : Option String :=
  let s := Text.trim statement.toList
  ((quotedModule? s).or ((dottedModule? s).or (pathModule? s))).bind fun found =>
    if found.isEmpty then none else some (String.ofList found)

/-- The modules that statements name, each one once. -/
def moduleSpecifiers (statements : List String) : List String :=
  (statements.filterMap moduleSpecifier?).foldl
    (fun found m => if found.contains m then found else found ++ [m]) []

end GuidedTour
