import GuidedTour.Json.Reader
import GuidedTour.Text.Basic
import GuidedTour.Toml.Reader

namespace GuidedTour.Manifest

/-!
# What manifests say about a project

* `names` — the manifests that are looked for, in order;
* `description?` — the description that a manifest gives, without blanks around it.
-/

/-- The manifests that are looked for, in order. -/
def names : List String := ["package.json", "Cargo.toml", "pyproject.toml"]

/-- The description in a package file. -/
def ofPackage? (text : String) : Option String :=
  ((Json.parse text.toList).bind (·.member? "description")).bind Json.text?

/-- The value at the end of a path of keys. -/
def at? (path : List String) (t : Toml) : Option Toml :=
  path.foldl (fun found key => found.bind (·.member? key)) (some t)

/-- The description under the first of some paths that leads anywhere. -/
def ofTables? (paths : List (List String)) (text : String) : Option String :=
  (Toml.parse text.toList).bind fun t => (paths.findSome? fun path => at? path t).bind Toml.text?

/-- The description that a manifest with some name gives, as it is written there. -/
def written? (name text : String) : Option String :=
  if name == "package.json" then ofPackage? text
  else if name == "Cargo.toml" then ofTables? [["package", "description"]] text
  else if name == "pyproject.toml" then
    ofTables? [["project", "description"], ["tool", "poetry", "description"]] text
  else none

/-- The description that a manifest with some name gives; a blank one does not count. -/
def description? (name text : String) : Option String :=
  ((written? name text).map String.trimBlanks).filter fun s => !s.isEmpty

end GuidedTour.Manifest
