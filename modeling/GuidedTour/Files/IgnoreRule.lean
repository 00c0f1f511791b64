import GuidedTour.Glob.Reader
import GuidedTour.Text.Basic

namespace GuidedTour

/-!
# Rules for files that are passed over

* `IgnoreRule.ofLine?` — the rule on a line of an ignore file;
* `IgnoreRule.ofText` — the rules of such a file;
* `verdict?` — what rules say about a path: the last rule that matches it decides.
-/

/-- A rule: what matches is passed over or, with `keeps`, not passed over. -/
structure IgnoreRule where
  pattern : Glob.Pattern
  keeps : Bool
  foldersOnly : Bool

namespace IgnoreRule

/-- The text without blanks at its end, unless the last of them is behind a backslash. -/
def trimLine (s : List Char) : List Char :=
  if ['\\', ' '].isSuffixOf s then s else Text.trimEnd s

/-- The text without a slash at its end and a backslash before that, and whether there was one. -/
def dropFinalSlash (s : List Char) : List Char × Bool :=
  match s.reverse with
  | '/' :: '\\' :: rest => (rest.reverse, true)
  | '/' :: rest => (rest.reverse, true)
  | _ => (s, false)

/-- A pattern for paths below the folder of the rule. Without a slash it matches in every folder;
two stars at the end match what lies inside a folder but not the folder. -/
def widen (anchored : Bool) (s : List Char) : List Char :=
  let s :=
    if anchored || s.contains '/' || s == "**".toList then s else "**/".toList ++ s
  if "/**".toList.isSuffixOf s then s ++ "/*".toList else s

/-- The rule of a pattern. -/
def ofPattern? (keeps anchored : Bool) (s : List Char) : Option IgnoreRule :=
  let (s, foldersOnly) := dropFinalSlash s
  (Glob.Pattern.parse? .ignoreFile (widen anchored s)).map fun pattern =>
    ⟨pattern, keeps, foldersOnly⟩

/-- The rule of a pattern, which a slash at the start ties to the folder of the rule. -/
def ofAnchor? (keeps : Bool) : List Char → Option IgnoreRule
  | '/' :: s => ofPattern? keeps true s
  | s => ofPattern? keeps false s

/-- The rule on a line. Comments, blank lines and what is no pattern hold none. -/
def ofLine? (line : List Char) : Option IgnoreRule :=
  if line.head? == some '#' then none
  else match trimLine line with
    | [] => none
    | '\\' :: '!' :: s => ofPattern? false false ('!' :: s)
    | '\\' :: '#' :: s => ofPattern? false false ('#' :: s)
    | '!' :: s => ofAnchor? true s
    | s => ofAnchor? false s

/-- The text without marks of the byte order at its start. -/
def dropMarks (s : List Char) : List Char := s.dropWhile (· == '\uFEFF')

/-- The rules of a text. -/
def ofText (s : List Char) : List IgnoreRule := (Text.lines (dropMarks s)).filterMap ofLine?

/-- The lines before the first that is no text. -/
def readableLines (done : List Char) : List (List UInt8) → List Char
  | [] => done
  | line :: rest =>
    match String.fromUTF8? ⟨line.toArray⟩ with
    | some text => readableLines (done ++ text.toList ++ ['\n']) rest
    | none => done

/-- The lines of a file as bytes. -/
def byteLines (line : List UInt8) : List UInt8 → List (List UInt8)
  | [] => [line.reverse]
  | b :: rest => if b == 10 then line.reverse :: byteLines [] rest else byteLines (b :: line) rest

/-- The rules of a file, up to a line that is no text. -/
def ofBytes (bytes : ByteArray) : List IgnoreRule :=
  ofText (match String.fromUTF8? bytes with
    | some text => text.toList
    | none => readableLines [] (byteLines [] bytes.toList))

/-- Whether the rule speaks of a path. -/
def covers (r : IgnoreRule) (path : String) (isFolder : Bool) : Bool :=
  (isFolder || !r.foldersOnly) && r.pattern.isMatch path

end IgnoreRule

/-- What rules say about a path: `true` where it is passed over, `false` where it is kept. -/
def verdict? (rules : List IgnoreRule) (path : String) (isFolder : Bool) : Option Bool :=
  (rules.reverse.find? fun r => r.covers path isFolder).map fun r => !r.keeps

end GuidedTour
