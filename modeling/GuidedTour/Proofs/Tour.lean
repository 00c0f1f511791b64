import GuidedTour.Proofs.Merge
import GuidedTour.Proofs.Ranking
import GuidedTour.Proofs.Welcome
import GuidedTour.Run.Generation

namespace GuidedTour

/-!
# The whole run as a course

`tourCourse` is written with failures that end it. This module spells out what it does one after
another (`tourCourse_run`), in which rounds it asks (`tourRounds`), and what it comes to whatever
happens on the way (`tourCourse_ensures`): a report if it was never called off, and else none.

* `Course.unlessCalledOff` — what is done behind a checkpoint;
* `Workspace.course` — what the run does once the files are known;
* `Workspace.IsReport` — the reports that a run can come to.
-/

variable {k : Conditions} {α β : Type}

namespace Course

instance : LawfulMonad Course := LawfulMonad.mk' Course
  (fun c => by
    induction c with
    | finished result => rfl
    | reports milestone rest ih => exact congrArg (reports milestone) ih
    | looks rest ih => exact congrArg looks (funext ih)
    | asks requests rest ih => exact congrArg (asks requests) (funext ih))
  (fun _ _ => rfl)
  (fun c _ _ => by
    induction c with
    | finished result => rfl
    | reports milestone rest ih => exact congrArg (reports milestone) ih
    | looks rest ih => exact congrArg looks (funext ih)
    | asks requests rest ih => exact congrArg (asks requests) (funext ih))

/-- What is done unless the run was called off. -/
def unlessCalledOff (rest : Course (Except RunFailure α)) : Course (Except RunFailure α) :=
  looks fun called => if called then finished (.error .cancelled) else rest

/-- A course that may stop at once follows the same rounds. -/
theorem Follows.unlessCalledOff {rounds : List Round} {rest : Course (Except RunFailure α)}
    (h : rest.Follows rounds) : (unlessCalledOff rest).Follows rounds := by
  refine .looks fun called => ?_
  cases called with
  | true => exact .finished
  | false => exact h

/-- What a course ensures if it may stop at once: the one thing if it was called off, the other if
not. -/
theorem ensures_unlessCalledOff {Q : Standing → Except RunFailure α → Prop}
    {rest : Course (Except RunFailure α)} {st : Standing}
    (hcalled : st.isCancelled = true → Q st (.error .cancelled))
    (hrest : st.isCancelled = false → rest.Ensures k Q st) :
    (unlessCalledOff rest).Ensures k Q st := by
  cases h : st.isCancelled with
  | true => simpa [unlessCalledOff, Ensures, h] using hcalled h
  | false => simpa [unlessCalledOff, Ensures, h] using hrest h

end Course

namespace Attempt

/-- An attempt looks whether it was called off, and goes on or stops. -/
theorem run_checkpoint_bind (next : Unit → Attempt α) :
    (checkpoint >>= next).run = Course.unlessCalledOff (next ()).run := by
  refine congrArg Course.looks (funext fun called => ?_)
  cases called <;> rfl

theorem run_report_bind (milestone : Milestone) (next : Unit → Attempt α) :
    (report milestone >>= next).run = .reports milestone (next ()).run := rfl

/-- An attempt takes a course and goes on with its result. -/
theorem run_course_bind (c : Course β) (next : β → Attempt α) :
    ((liftM c : Attempt β) >>= next).run = c >>= fun result => (next result).run :=
  ExceptT.run_bind_lift c next

end Attempt

namespace Workspace

variable (workspace : Workspace) (parser : Parser) (options : RunOptions) (files : List String)

/-- What the service is asked for the welcome. -/
def welcomeRequest : Request :=
  Welcome.request (workspace.survey parser files) (Context.ofWorkspace workspace) options.model

/-- The report on some drafts. -/
def report (welcome : Draft) (brought : BatchResult) : Report :=
  let project := workspace.survey parser files
  let context := Context.ofWorkspace workspace
  { tour := .titled (options.tourTitle context) context.tourDescription
      (review project options.review (welcome :: brought.drafts))
    filesAnalyzed := project.files.length
    totalBatches := brought.totalBatches
    failedBatches := brought.failedBatches }

/-- The batches of a run. -/
def batches : List Batch := plan (workspace.survey parser files) options.batches

/-- What a run does once the welcome is known; without one it ends. -/
def courseAfter : Option Draft → Course (Except RunFailure Report)
  | none => .finished (.error .crashed)
  | some welcome => do
    let brought ← batchesCourse options.batches options.model
      (Context.ofWorkspace workspace).name (workspace.batches parser options files)
    .reports .validating <| .unlessCalledOff <|
      .finished (.ok (workspace.report parser options files welcome brought))

/-- After the welcome, the attempt asks for the batches, looks once more and puts the report
together. -/
theorem run_afterWelcome (welcome : Draft) :
    (do
      let brought ← (liftM (batchesCourse options.batches options.model
        (Context.ofWorkspace workspace).name (workspace.batches parser options files)) :
          Attempt BatchResult)
      Attempt.report .validating
      Attempt.checkpoint
      pure (workspace.report parser options files welcome brought) : Attempt Report).run =
      workspace.courseAfter parser options files (some welcome) := by
  simp only [Attempt.run_course_bind, Attempt.run_report_bind, Attempt.run_checkpoint_bind]
  rfl

/-- What a run does once the files are known. -/
def course : Course (Except RunFailure Report) :=
  .unlessCalledOff <| .reports (.analyzed (workspace.survey parser files).files.length) <|
    .unlessCalledOff <| .reports .welcome <|
      .asks [workspace.welcomeRequest parser options files] fun outcomes =>
        workspace.courseAfter parser options files <| outcomes.head?.bind <|
          Welcome.ofOutcome (workspace.survey parser files) (Context.ofWorkspace workspace)

end Workspace

/-- What the whole run does, one after another. -/
theorem tourCourse_run (workspace : Workspace) (parser : Parser) (options : RunOptions) :
    (tourCourse workspace parser options).run =
      .unlessCalledOff (.reports .discovering
        (match workspace.discover? options.discovery with
        | some files => workspace.course parser options files
        | none => .finished (.error (.workspace .invalidPattern)))) := by
  rw [tourCourse, Attempt.run_checkpoint_bind, Attempt.run_report_bind]
  cases workspace.discover? options.discovery with
  | none => rfl
  | some files =>
    simp only [Attempt.run_checkpoint_bind, Attempt.run_report_bind, Attempt.run_course_bind,
      Workspace.course]
    -- Up to the welcome both are the same; what follows it is compared for each answer.
    congr 6
    refine congrArg (Course.asks _) (funext fun outcomes => ?_)
    show Course.bind (pure (outcomes.head?.bind _)) _ = _
    cases outcomes.head?.bind (Welcome.ofOutcome (workspace.survey parser files)
      (Context.ofWorkspace workspace)) with
    | none => rfl
    | some welcome => exact workspace.run_afterWelcome parser options files welcome

/-! ### Its rounds -/

namespace Workspace

variable (workspace : Workspace) (parser : Parser) (options : RunOptions) (files : List String)

/-- A run called off after its welcome asks nothing more. -/
theorem courseAfter_isQuiet (welcome : Option Draft) :
    (workspace.courseAfter parser options files welcome).IsQuiet := by
  cases welcome with
  | none => trivial
  | some welcome => exact (batchesCourse_isQuiet _ _ _ _).bind fun _ => ⟨rfl, trivial⟩

/-- The rounds in which a run asks once the files are known. -/
def rounds : List Round :=
  ⟨.welcome, [workspace.welcomeRequest parser options files]⟩ ::
    batchRounds options.batches options.model (Context.ofWorkspace workspace).name
      (workspace.batches parser options files)

/-- After the listing of files, a run asks for a welcome and then for the batches. -/
theorem course_follows :
    (workspace.course parser options files).Follows (workspace.rounds parser options files) := by
  refine .unlessCalledOff (.reports rfl trivial (.unlessCalledOff (.announces rfl ?_ ?_)))
  · exact fun _ => workspace.courseAfter_isQuiet parser options files _
  · intro outcomes
    cases outcomes.head?.bind (Welcome.ofOutcome (workspace.survey parser files)
      (Context.ofWorkspace workspace)) with
    | none => exact .finished
    | some welcome =>
      exact (batchesCourse_follows _ _ _ _).bind
        (fun _ => .reports rfl trivial (.unlessCalledOff .finished)) fun _ => ⟨rfl, trivial⟩

end Workspace

/-- The rounds in which the whole run asks: the welcome, and then the groups of batches. -/
def tourRounds (workspace : Workspace) (parser : Parser) (options : RunOptions) : List Round :=
  match workspace.discover? options.discovery with
  | some files => workspace.rounds parser options files
  | none => []

section Run

variable (workspace : Workspace) (parser : Parser) (options : RunOptions)

/-- A run that was called off from the start asks nothing. -/
theorem tourCourse_isQuiet : (tourCourse workspace parser options).run.IsQuiet := by
  rw [tourCourse_run]
  trivial

/-- A run asks in the rounds that its project and its options give. -/
theorem tourCourse_follows :
    (tourCourse workspace parser options).run.Follows (tourRounds workspace parser options) := by
  rw [tourCourse_run, tourRounds]
  cases workspace.discover? options.discovery with
  | none => exact .unlessCalledOff (.reports rfl trivial .finished)
  | some files =>
    exact .unlessCalledOff (.reports rfl trivial (workspace.course_follows parser options files))

end Run

/-! ### What it comes to -/

/-- The reports that a run can come to: a welcome that the service or its failure led to, and what
some of the batches brought. -/
def Workspace.IsReport (workspace : Workspace) (parser : Parser) (options : RunOptions)
    (files : List String) (report : Report) : Prop :=
  ∃ outcome welcome brought,
    Welcome.ofOutcome (workspace.survey parser files) (Context.ofWorkspace workspace) outcome =
      some welcome ∧
    brought.totalBatches = (workspace.batches parser options files).length ∧
    brought.failedBatches ≤ brought.totalBatches ∧
    report = workspace.report parser options files welcome brought

/-- What a run is to come to: a report exactly if it was never called off. -/
def Workspace.IsOutcome (workspace : Workspace) (parser : Parser) (options : RunOptions)
    (files : List String) (isCancelled : Bool) (result : Except RunFailure Report) : Prop :=
  match isCancelled with
  | true => result = .error .cancelled
  | false => ∃ report, workspace.IsReport parser options files report ∧ result = .ok report

/-- All batches are counted, and no more of them have failed. -/
theorem batchesCourse_ensures (k : Conditions) (options : BatchOptions) (model : Option String)
    (project : String) (batches : List Batch) (st : Standing) :
    (batchesCourse options model project batches).Ensures k
      (fun _ brought => brought.totalBatches = batches.length ∧
        brought.failedBatches ≤ brought.totalBatches) st := by
  refine Course.ensures_bind.mpr ((groupsCourse_ensures k _ 1 _ st).mono ?_)
  rintro st' outcomes ⟨started, hend⟩
  have hasked : outcomes.length ≤ batches.length := by
    rw [hend.outcomes, requestGroups_take_flatten]
    simp [Conditions.outcomes, batchRequests]
  exact ⟨rfl, Nat.le_trans List.countP_le_length hasked⟩

namespace Workspace

variable {workspace : Workspace} {parser : Parser} {options : RunOptions} {files : List String}

theorem isOutcome_cancelled {isCancelled : Bool} (h : isCancelled = true) :
    workspace.IsOutcome parser options files isCancelled (.error .cancelled) := by
  rw [h]
  rfl

/-- With a welcome, a run comes to a report unless it is called off. -/
theorem courseAfter_ensures {outcome : Outcome} {welcome : Draft}
    (h : Welcome.ofOutcome (workspace.survey parser files) (Context.ofWorkspace workspace) outcome =
      some welcome) (st : Standing) :
    (workspace.courseAfter parser options files (some welcome)).Ensures k
      (fun st' result => workspace.IsOutcome parser options files st'.isCancelled result) st := by
  refine Course.ensures_bind.mpr ((batchesCourse_ensures k _ _ _ _ st).mono ?_)
  rintro st' brought ⟨htotal, hfailed⟩
  have hlast : ∀ st : Standing,
      (Course.unlessCalledOff (.finished (.ok
        (workspace.report parser options files welcome brought)))).Ensures k
          (fun st' result =>
            workspace.IsOutcome parser options files st'.isCancelled result) st := by
    refine fun st => Course.ensures_unlessCalledOff isOutcome_cancelled fun hrunning => ?_
    simp only [Course.Ensures, IsOutcome, hrunning]
    exact ⟨_, ⟨outcome, welcome, brought, h, htotal, hfailed, rfl⟩, rfl⟩
  exact ⟨hlast _, hlast _⟩

/-- Once the files are known, a run whose welcome does not crash comes to a report unless it is
called off. -/
theorem course_ensures {outcome : Outcome} {st : Standing}
    (houtcome : k.outcomes st.asked [workspace.welcomeRequest parser options files] = [outcome])
    (hwelcome : outcome ≠ .crashed) :
    (workspace.course parser options files).Ensures k
      (fun st' result => workspace.IsOutcome parser options files st'.isCancelled result) st := by
  obtain ⟨welcome, h⟩ := Welcome.exists_ofOutcome (workspace.survey parser files)
    (Context.ofWorkspace workspace) hwelcome
  -- However the run was called off meanwhile, the welcome is the first request.
  have hround : ∀ st' : Standing, st'.asked = st.asked →
      (Course.asks [workspace.welcomeRequest parser options files] fun outcomes =>
        workspace.courseAfter parser options files <| outcomes.head?.bind <|
          Welcome.ofOutcome (workspace.survey parser files)
            (Context.ofWorkspace workspace)).Ensures k
        (fun st' result =>
          workspace.IsOutcome parser options files st'.isCancelled result) st' := by
    intro st' hasked
    have hsome : (k.outcomes st'.asked
        [workspace.welcomeRequest parser options files]).head?.bind (Welcome.ofOutcome
          (workspace.survey parser files) (Context.ofWorkspace workspace)) = some welcome := by
      rw [hasked, houtcome]
      exact h
    simp only [Course.Ensures, hsome]
    exact ⟨courseAfter_ensures h _, courseAfter_ensures h _⟩
  refine Course.ensures_unlessCalledOff isOutcome_cancelled fun _ => ⟨?_, ?_⟩
  · refine Course.ensures_unlessCalledOff isOutcome_cancelled fun _ => ?_
    exact ⟨hround _ rfl, hround _ rfl⟩
  · refine Course.ensures_unlessCalledOff isOutcome_cancelled fun _ => ?_
    exact ⟨hround _ rfl, hround _ rfl⟩

end Workspace

/-- A run whose welcome does not crash comes to one of its outcomes. -/
theorem tourCourse_ensures {workspace : Workspace} {parser : Parser} {options : RunOptions}
    {files : List String} (hfiles : workspace.discover? options.discovery = some files)
    {st : Standing} {outcome : Outcome}
    (houtcome : k.outcomes st.asked [workspace.welcomeRequest parser options files] = [outcome])
    (hwelcome : outcome ≠ .crashed) :
    (tourCourse workspace parser options).run.Ensures k
      (fun st' result => workspace.IsOutcome parser options files st'.isCancelled result) st := by
  rw [tourCourse_run, hfiles]
  refine Course.ensures_unlessCalledOff Workspace.isOutcome_cancelled fun _ => ⟨?_, ?_⟩
  · exact Workspace.course_ensures houtcome hwelcome
  · exact Workspace.course_ensures houtcome hwelcome

/-! ### Its runs -/

/-- The beginning of a whole run, which may have been called off before. -/
def tourStart (workspace : Workspace) (parser : Parser) (options : RunOptions)
    (isCancelled : Bool) : Scene (Except RunFailure Report) :=
  .start (.empty isCancelled) (tourCourse workspace parser options).run

variable {workspace : Workspace} {parser : Parser} {options : RunOptions} {isCancelled : Bool}

/-- What is generated is what one of the runs comes to. -/
theorem generate_exists_run (around : Surroundings) (workspace : Workspace) (parser : Parser)
    (options : RunOptions) (isCancelled : Bool) :
    let generated := (generate around workspace parser options).outcome isCancelled
    ∃ s, Scene.Reaches (around.conditions options.batches.timeout)
        (tourStart workspace parser options isCancelled) s ∧
      s.Mirrors (.empty isCancelled) generated.2 ∧
      s.activity = .going (.finished generated.1) :=
  (tourCourse workspace parser options).run.exists_run around options.batches.timeout
    (.empty isCancelled)

/-- A whole run keeps to its rounds. -/
theorem tour_inOrder {s : Scene (Except RunFailure Report)}
    (h : Scene.Reaches k (tourStart workspace parser options isCancelled) s) :
    s.InOrder 0 (tourRounds workspace parser options) :=
  h.inOrder (.start (.empty isCancelled) (tourCourse_follows workspace parser options)
    fun _ => tourCourse_isQuiet workspace parser options)

/-- A whole run comes to a report exactly if it was never called off. -/
theorem tour_isOutcome {files : List String} {s : Scene (Except RunFailure Report)}
    {result : Except RunFailure Report}
    (hfiles : workspace.discover? options.discovery = some files)
    (hwelcome : ((k.endings 0 (workspace.welcomeRequest parser options files)).within
      k.deadline).2 ≠ .crashed)
    (h : Scene.Reaches k (tourStart workspace parser options isCancelled) s)
    (hfinished : s.activity = .going (.finished result)) :
    workspace.IsOutcome parser options files s.isCancelled result :=
  h.result rfl (tourCourse_ensures hfiles rfl hwelcome) hfinished

/-! ### A small project -/

/-- The texts of three files, told from their lines: a class with a method, a function and a class
without members. -/
def smallTexts : List (String × String) :=
  [("src/app.ts", "class App \x7b\n  run() \x7b\n  \x7d\n\x7d\n"),
    ("src/greet.ts", "function greet(name) \x7b\n\x7d\n"),
    ("src/names.ts", "class Names \x7b\n\x7d\n")]

/-- A project with these files. -/
def smallProject : Workspace where
  root := "/small"
  name := "small"
  listed := smallTexts.map Prod.fst
  textOf? file := smallTexts.lookup file

/-- Options under which each of these files is a batch of its own. Two batches may be under way at
once, so that there are two groups. -/
def smallOptions : RunOptions := { batches := { batchSize := 1, concurrency := 2 } }

/-- The small project is discovered file by file. -/
theorem smallProject_files :
    smallProject.discover? smallOptions.discovery = some (smallTexts.map Prod.fst) := by
  -- The sort is evaluated as an insertion sort, which the kernel can run.
  simp only [Workspace.discover?, selectFiles, prioritize, fallingBy_eq_insertionSort]
  decide +kernel

end GuidedTour
