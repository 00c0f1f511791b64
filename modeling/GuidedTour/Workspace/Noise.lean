import GuidedTour.Glob.Reader
import GuidedTour.Text.Lower

namespace GuidedTour

/-!
# Files that are no part of a tour

* `noiseGlobs` — patterns for dependencies, build output, tests and generated files;
* `exclusions` — those patterns and the caller's own. One that cannot be read is left out;
* `inclusions?` — a pattern for a list of extensions;
* `isNoise` — a check of its own, for paths that did not go through the patterns. It does not look
  at letter case or at the direction of slashes.
-/

/-- Patterns of files that are never wanted. -/
def noiseGlobs : List String := [
  "**/node_modules/**", "**/bower_components/**", "**/dist/**", "**/build/**", "**/out/**",
  "**/target/**", "**/coverage/**", "**/.next/**", "**/.nuxt/**", "**/.output/**",
  "**/.turbo/**", "**/vendor/**", "**/third_party/**", "**/__pycache__/**", "**/.venv/**",
  "**/venv/**",
  "**/.git/**", "**/.hg/**", "**/.svn/**", "**/.vscode/**", "**/.idea/**",
  "**/*.test.*", "**/*.spec.*", "**/*_test.*", "**/test_*.py", "**/__tests__/**",
  "**/__mocks__/**",
  "**/*.min.js", "**/*.min.css", "**/*.bundle.js", "**/*.map", "**/*.d.ts", "**/*.generated.*",
  "**/*.pb.go", "**/*_pb2.py"]

/-- Parts of a path that mark noise wherever they occur. -/
def noiseFragments : List String := [
  "/node_modules/", "/bower_components/", "/dist/", "/build/", "/out/", "/target/", "/coverage/",
  "/vendor/", "/__pycache__/", "/__tests__/", "/.git/", "/.vscode/", "/.idea/",
  ".min.", ".test.", ".spec.", ".d.ts", ".generated."]

/-- The pattern over paths that a text spells. -/
def pathPattern? (s : String) : Option Glob.Pattern := Glob.Pattern.parse? .paths s.toList

/-- The noise patterns. -/
def noisePatterns : Glob.Patterns := noiseGlobs.filterMap pathPattern?

/-- The noise patterns and those of the caller. -/
def exclusions (extra : List String) : Glob.Patterns :=
  noisePatterns ++ ((extra.map String.trimBlanks).filter (!·.isEmpty)).filterMap pathPattern?

/-- An extension without blanks and leading dots, in lower case. -/
def tidyExtension (s : String) : String :=
  s.mapText fun cs => Text.lower ((Text.trim cs).dropWhile (· == '.'))

/-- The list without an item that equals the one before it. -/
def dropRepeats : List String → List String
  | [] => []
  | [s] => [s]
  | s :: t :: rest => if s == t then dropRepeats (t :: rest) else s :: dropRepeats (t :: rest)

/-- The text of the pattern for some extensions; there is none without an extension. -/
def inclusionGlob? (extensions : List String) : Option String :=
  match dropRepeats ((extensions.map tidyExtension).filter (!·.isEmpty)) with
  | [] => none
  | [one] => some ("**/*." ++ one)
  | several => some ("**/*.\x7b" ++ ",".intercalate several ++ "\x7d")

/-- The pattern for some extensions. None matches nothing; a text that is no pattern is refused. -/
def inclusions? (extensions : List String) : Option Glob.Patterns :=
  match inclusionGlob? extensions with
  | none => some []
  | some glob => (pathPattern? glob).map fun p => [p]

/-- Whether a path is noise. -/
def isNoise (path : String) : Bool :=
  let s := Text.lower (Text.slashed path.toList)
  noisePatterns.isMatch (String.ofList (Text.dropDotSlash s)) ||
    noiseFragments.any fun fragment => Text.contains fragment.toList ('/' :: s)

end GuidedTour
