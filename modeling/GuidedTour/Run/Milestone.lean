namespace GuidedTour

/-!
# Milestones of a run

* `Milestone` — the points that a run reports when it reaches them;
* `Milestone.notice` — the line that tells a reader about one.
-/

/-- The points of a run. Groups of batches are counted from one. -/
inductive Milestone where
  | discovering
  | analyzed (files : Nat)
  | welcome
  | batchGroup (index total : Nat)
  | validating
  deriving DecidableEq, Repr, Inhabited

/-- The line that tells a reader about a milestone. -/
def Milestone.notice : Milestone → String
  | discovering => "Discovering files..."
  | analyzed files => "Analyzed " ++ toString files ++ " files"
  | welcome => "Writing welcome step..."
  | batchGroup index total =>
    "Generating steps (group " ++ toString index ++ "/" ++ toString total ++ ")..."
  | validating => "Validating steps..."

end GuidedTour
