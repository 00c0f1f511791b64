import GuidedTour.Tour.Manifest
import GuidedTour.Tour.Readme
import GuidedTour.Workspace.Basic

namespace GuidedTour

/-!
# What a project says about itself

* `Context` — name, cleaned README and description of a project;
* `Context.ofWorkspace` — the context that the files at the root of a workspace give.
-/

/-- A README, cleaned, with its path. -/
structure ReadmeText where
  file : String
  cleaned : String
  deriving DecidableEq, Repr, Inhabited

/-- What a project says about itself. -/
structure Context where
  name : String
  readme : Option ReadmeText
  description : Option String
  deriving DecidableEq, Repr, Inhabited

/-- The READMEs that are looked for, in order. -/
def readmeNames : List String :=
  ["README.md", "readme.md", "Readme.md", "README.markdown", "README.rst", "README.txt", "README"]

namespace Context

/-- The first README that there is. -/
def readme? (w : Workspace) : Option ReadmeText :=
  readmeNames.findSome? fun file =>
    (w.textOf? file).map fun text => ⟨file, text.mapText Readme.clean⟩

/-- The description in the first manifest that gives one. -/
def description? (w : Workspace) : Option String :=
  Manifest.names.findSome? fun file => (w.textOf? file).bind (Manifest.description? file)

/-- What the files at the root of a workspace say. -/
def ofWorkspace (w : Workspace) : Context := ⟨w.name, readme? w, description? w⟩

end Context

end GuidedTour
