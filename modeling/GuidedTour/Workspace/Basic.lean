import GuidedTour.Workspace.Ranking

namespace GuidedTour

/-!
# The files of a project as a run sees them

* `Workspace` — a root with a name, the files in the order they are listed, and their texts;
* `Workspace.find` — the files that match patterns, up to a number;
* `Workspace.discover?` — the files that a tour looks at, the most promising first.
-/

/-- The files of a project. Paths are given from the root on, with slashes. -/
structure Workspace where
  root : String
  name : String
  listed : List String
  textOf? : String → Option String

namespace Workspace

/-- The first files that are included and not excluded. -/
def find (w : Workspace) (included excluded : Glob.Patterns) (cap : Option Nat) : List String :=
  let found := w.listed.filter fun path => !excluded.isMatch path && included.isMatch path
  match cap with
  | some most => found.take most
  | none => found

/-- The files that a tour looks at; there are none if the extensions make no pattern. -/
def discover? (w : Workspace) (options : DiscoveryOptions) : Option (List String) :=
  (inclusions? options.includeExtensions).map fun included =>
    selectFiles options (w.find included (exclusions options.excludePatterns) options.candidateCap)

end Workspace

end GuidedTour
