import GuidedTour.Run.Failure
import GuidedTour.Run.Group
import GuidedTour.Run.Welcome
import GuidedTour.Tour.Artifact
import GuidedTour.Workspace.Survey

namespace GuidedTour

/-!
# A run from the files to the tour

* `RunOptions` — all that can be chosen;
* `Report` — the tour, and how much went into it;
* `Attempt` — a course that a failure ends;
* `tourCourse` — the whole run: the files are discovered and outlined, the welcome is written, then
  the batches, and the drafts are reviewed. Between these steps the run looks whether it was
  called off;
* `Run` — an attempt as it is carried out: what it does to the journal, and what it comes to;
* `generate` — the whole run carried out.
-/

/-- What can be chosen about a run. -/
structure RunOptions where
  title : Option String := none
  model : Option String := none
  discovery : DiscoveryOptions := {}
  batches : BatchOptions := {}
  review : ReviewOptions := {}
  deriving Inhabited

/-- What a run brought. -/
structure Report where
  tour : Tour
  filesAnalyzed : Nat
  totalBatches : Nat
  failedBatches : Nat
  deriving Inhabited

/-- How many steps the tour has. -/
def Report.stepCount (r : Report) : Nat := r.tour.steps.length

/-- Whether a run goes on, given whether it was called off. -/
def checked (isCancelled : Bool) : Except RunFailure Unit :=
  if isCancelled then .error .cancelled else .ok ()

/-- A course that a failure ends. -/
abbrev Attempt := ExceptT RunFailure Course

namespace Attempt

/-- A milestone is reported. -/
def report (milestone : Milestone) : Attempt Unit := Course.report milestone

/-- The attempt ends here if it was called off. -/
def checkpoint : Attempt Unit := ExceptT.mk (checked <$> Course.isCalledOff)

end Attempt

/-- The title of the tour: the one that was chosen, unless it is blank. -/
def RunOptions.tourTitle (o : RunOptions) (c : Context) : String :=
  (o.title.filter fun title => !title.isAllBlank).getD (c.name ++ " Tour")

/-- The description of the tour. -/
def Context.tourDescription (c : Context) : String :=
  c.description.getD ("A guided tour of " ++ c.name)

/-- The whole run. -/
def tourCourse (workspace : Workspace) (parser : Parser) (options : RunOptions) :
    Attempt Report := do
  Attempt.checkpoint
  Attempt.report .discovering
  let some files := workspace.discover? options.discovery
    | throw (.workspace .invalidPattern)
  Attempt.checkpoint
  let project := workspace.survey parser files
  Attempt.report (.analyzed project.files.length)
  let context := Context.ofWorkspace workspace
  let batches := plan project options.batches
  Attempt.checkpoint
  Attempt.report .welcome
  let some welcome ← Welcome.course project context options.model
    | throw .crashed
  let brought ← batchesCourse options.batches options.model context.name batches
  Attempt.report .validating
  let steps := review project options.review (welcome :: brought.drafts)
  Attempt.checkpoint
  pure
    { tour := .titled (options.tourTitle context) context.tourDescription steps
      filesAnalyzed := project.files.length
      totalBatches := brought.totalBatches
      failedBatches := brought.failedBatches }

/-- A run: what it does to the journal, and what it comes to. -/
abbrev Run := ExceptT RunFailure (StateM Journal)

namespace Run

/-- The run ends here if it was called off. -/
def checkpoint : Run Unit := ExceptT.mk fun j => (checked j.isCancelled, j)

/-- What a run comes to, and all that happened in it. -/
def outcome (run : Run α) (isCancelled : Bool) : Except RunFailure α × Journal :=
  (ExceptT.run run).run (.empty isCancelled)

end Run

/-- An attempt carried out, each request for at most `deadline` seconds. -/
def Attempt.carriedOut (around : Surroundings) (deadline : Nat) (attempt : Attempt α) : Run α :=
  ExceptT.mk fun j => (attempt.run.execute around deadline j).swap

/-- The whole run in some surroundings. -/
def generate (around : Surroundings) (workspace : Workspace) (parser : Parser)
    (options : RunOptions) : Run Report :=
  (tourCourse workspace parser options).carriedOut around options.batches.timeout

end GuidedTour
