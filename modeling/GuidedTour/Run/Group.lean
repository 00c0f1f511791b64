import GuidedTour.Run.Batch
import GuidedTour.Run.Course
import GuidedTour.Tour.Answer

namespace GuidedTour

/-!
# Batches group by group

As many requests as may be under way at once form a group. A group is asked for only when every
request of the group before is over, and not at all once the run is called off.

* `Outcome.drafts`, `Outcome.isAnswer` — what a request adds to the tour;
* `groupsCourse` — the outcomes of all groups that are asked for, in the order of their batches;
* `batchesCourse` — the drafts of all batches together;
* `askBatches` — the same carried out.
-/

/-- The drafts that a request brought; without an answer there are none. -/
def Outcome.drafts (o : Outcome) : List Draft :=
  match o.text? with
  | some text => Answer.drafts text.toList
  | none => []

/-- Whether a request was answered. -/
def Outcome.isAnswer (o : Outcome) : Bool := o.text?.isSome

/-- The outcomes of the groups from the one with number `index` on. -/
def groupsCourse (total index : Nat) : List (List Request) → Course (List Outcome)
  | [] => pure []
  | group :: rest => do
    if ← Course.isCalledOff then pure []
    else
      Course.report (.batchGroup index total)
      let outcomes ← Course.ask group
      let others ← groupsCourse total (index + 1) rest
      pure (outcomes ++ others)

/-- What all batches together brought. -/
structure BatchResult where
  drafts : List Draft
  totalBatches : Nat
  failedBatches : Nat
  deriving DecidableEq, Inhabited

/-- The result of the requests that were made for so many batches. -/
def BatchResult.ofOutcomes (totalBatches : Nat) (outcomes : List Outcome) : BatchResult :=
  ⟨outcomes.flatMap Outcome.drafts, totalBatches, outcomes.countP fun o => !o.isAnswer⟩

/-- The requests of all batches of a project in their groups. -/
def requestGroups (options : BatchOptions) (model : Option String) (project : String)
    (batches : List Batch) : List (List Request) :=
  chunks options.concurrency (batches.map fun b => b.request model project)

/-- All batches of a project, group by group. -/
def batchesCourse (options : BatchOptions) (model : Option String) (project : String)
    (batches : List Batch) : Course BatchResult := do
  let groups := requestGroups options model project batches
  let outcomes ← groupsCourse groups.length 1 groups
  pure (.ofOutcomes batches.length outcomes)

/-- The batches of a project asked for, and what they brought. -/
def askBatches (around : Surroundings) (options : BatchOptions) (model : Option String)
    (project : String) (batches : List Batch) (j : Journal) : Journal × BatchResult :=
  (batchesCourse options model project batches).execute around options.timeout j

end GuidedTour
