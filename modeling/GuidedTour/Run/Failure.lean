import GuidedTour.Service.Failure

namespace GuidedTour

/-!
# Why a run ends without a tour

* `WorkspaceFailure` — what can go wrong with the files of a project;
* `RunFailure` — what ends a run. A request that fails does not: the tour goes on without it.
-/

/-- What can go wrong with the files of a project. -/
inductive WorkspaceFailure where
  | io (detail : String)
  | invalidPattern
  | invalidRoot (path : String)
  | enumeration (detail : String)
  deriving DecidableEq, Repr

/-- A sentence on the failure. -/
def WorkspaceFailure.message : WorkspaceFailure → String
  | io detail => "IO error: " ++ detail
  | invalidPattern => "Invalid glob pattern"
  | invalidRoot path => "Invalid workspace root: " ++ path
  | enumeration detail => "File enumeration task failed: " ++ detail

/-- What ends a run without a tour. -/
inductive RunFailure where
  | cancelled
  | notConfigured (cause : Failure)
  | workspace (cause : WorkspaceFailure)
  | io (detail : String)
  | crashed
  deriving DecidableEq, Repr

/-- A sentence on the failure. -/
def RunFailure.message : RunFailure → String
  | cancelled => "Tour generation cancelled"
  | notConfigured cause => "Generation service not configured: " ++ cause.advice
  | workspace cause => "Workspace error: " ++ cause.message
  | io detail => "IO error: " ++ detail
  | crashed => "The generation service crashed"

end GuidedTour
