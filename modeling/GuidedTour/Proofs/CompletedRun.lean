import GuidedTour.Proofs.Review
import GuidedTour.Proofs.Tour

namespace GuidedTour

/-!
# What a completed run brings

* `Report.IsComplete` — the promise of a report: a tour that opens with a welcome and stays in the
  files of the project, and true counts;
* `Workspace.Completes` — a result that is such a report;
* `tour_completes` — a run that is not called off keeps the promise, whatever the service does with
  each request.
-/

/-- A report on a tour of a project with a greatest number of steps. -/
structure Report.IsComplete (report : Report) (p : Project) (maxSteps batches : Nat) : Prop where
  /-- The tour opens with a welcome, and later steps are in files of the project. -/
  steps : ∃ first later, report.tour.steps = first :: later ∧ first.IsWelcome ∧
    ∀ step ∈ later, step.IsKept p
  steps_le : report.tour.steps.length ≤ maxSteps
  total : report.totalBatches = batches
  failures : report.failedBatches ≤ report.totalBatches

variable {workspace : Workspace} {parser : Parser} {options : RunOptions} {files : List String}

/-- The report of a run that was not called off is complete, if a step is allowed at all. -/
theorem Workspace.IsReport.isComplete {report : Report}
    (h : workspace.IsReport parser options files report) (hsteps : 1 ≤ options.review.maxSteps) :
    report.IsComplete (workspace.survey parser files) options.review.maxSteps
      (workspace.batches parser options files).length := by
  obtain ⟨outcome, welcome, brought, hwelcome, htotal, hfailures, rfl⟩ := h
  exact
    { steps := review_welcome (Welcome.isFitWelcome_of_ofOutcome hwelcome) hsteps _
      steps_le := review_length_le _ _ _
      total := htotal
      failures := hfailures }

/-- A run came to a report that keeps its promise. -/
def Workspace.Completes (workspace : Workspace) (parser : Parser) (options : RunOptions)
    (files : List String) (result : Except RunFailure Report) : Prop :=
  ∃ report, result = .ok report ∧
    report.IsComplete (workspace.survey parser files) options.review.maxSteps
      (plan (workspace.survey parser files) options.batches).length

/-! ### Nobody calls the run off -/

section Journal

variable {around : Surroundings} {deadline : Nat} {j : Journal}

/-- Requests that call nothing off leave the run as it is. -/
theorem Journal.askAll_isCancelled (hservice : ∀ n r, (around.service n r).cancels = false)
    (requests : List Request) :
    (j.askAll around deadline requests).1.isCancelled = j.isCancelled := by
  induction requests generalizing j with
  | nil => rfl
  | cons request rest ih =>
    simp only [askAll, ask_eq]
    rw [ih]
    simp [hservice]

/-- A run is not called off if neither the service nor the reader does it. -/
theorem Course.execute_isCancelled {α : Type} (c : Course α)
    (hreader : ∀ milestone, around.callsOffAt milestone = false)
    (hservice : ∀ n r, (around.service n r).cancels = false) :
    (c.execute around deadline j).1.isCancelled = j.isCancelled := by
  induction c generalizing j with
  | finished result => rfl
  | reports milestone rest ih =>
    simp only [execute]
    rw [ih]
    simp [Journal.report, hreader]
  | looks rest ih => exact ih _
  | asks requests rest ih =>
    simp only [execute]
    rw [ih]
    exact Journal.askAll_isCancelled hservice requests

end Journal

/-- **A completed run brings a tour.** Take a project whose files are found, a service that does
what it likes with every request except that the welcome does not crash, and a tour of at least one
step. Every run comes to an end, and one that is never called off ends with a report that keeps its
promise. So does what is generated when neither the reader nor the service calls the run off. -/
theorem tour_completes (around : Surroundings)
    (hfiles : workspace.discover? options.discovery = some files)
    (hsteps : 1 ≤ options.review.maxSteps)
    (hwelcome : ((around.service.endings 0 (workspace.welcomeRequest parser options files)).within
      options.batches.timeout).2 ≠ .crashed) :
    let k := around.conditions options.batches.timeout
    let start := tourStart workspace parser options false
    Scene.Inevitable k Scene.IsFinished start ∧
      (∀ s result, Scene.Reaches k start s → s.activity = .going (.finished result) →
        .calledOff ∉ s.history → workspace.Completes parser options files result) ∧
      ((∀ milestone, around.callsOffAt milestone = false) →
        (∀ number request, (around.service number request).cancels = false) →
        workspace.Completes parser options files
          ((generate around workspace parser options).outcome false).1) := by
  intro k start
  have hresult : ∀ s result, Scene.Reaches k start s → s.activity = .going (.finished result) →
      s.isCancelled = false → workspace.Completes parser options files result := by
    intro s result hrun hfinished hrunning
    have houtcome := tour_isOutcome hfiles hwelcome hrun hfinished
    rw [hrunning] at houtcome
    obtain ⟨report, hreport, rfl⟩ := houtcome
    exact ⟨report, rfl, hreport.isComplete hsteps⟩
  refine ⟨Scene.inevitably_finished k start, fun s result hrun hfinished hnever => ?_,
    fun hreader hservice => ?_⟩
  · refine hresult s result hrun hfinished (Bool.eq_false_iff.mpr fun hcalled => hnever ?_)
    exact (tour_inOrder hrun).flag.mp hcalled
  · obtain ⟨s, hrun, hmirrors, hfinished⟩ :=
      generate_exists_run around workspace parser options false
    refine hresult s _ hrun hfinished (hmirrors.isCancelled.trans ?_)
    exact (tourCourse workspace parser options).run.execute_isCancelled hreader hservice

/-- A service that is too busy for the welcome. It answers about the first batch, crashes over the
second one and never says a word about the third. -/
def troubledService : Service := fun number _ =>
  { cancels := false
    ending := match number with
      | 0 => .answers 3 (.error (.rateLimited ""))
      | 1 => .answers 5 (.ok ⟨"[\x7b\"title\":\"App\",\"file\":\"app.ts\"\x7d]", none⟩)
      | 2 => .crashes
      | _ => .never }

/-- Even that service leads to a tour of a small project. Two of its three batches fail, and the
step of the other one is in the tour. -/
theorem tour_completes_smallProject :
    let files := smallTexts.map Prod.fst
    let result := ((generate ⟨troubledService, fun _ => false⟩ smallProject (.ofTrees .empty [])
      smallOptions).outcome false).1
    smallProject.discover? smallOptions.discovery = some files ∧
      smallProject.Completes (.ofTrees .empty []) smallOptions files result ∧
      result.toOption.map (fun report =>
        (report.totalBatches, report.failedBatches, report.tour.steps.tail.map Step.file)) =
          some (3, 2, ["src/app.ts"]) := by
  intro files result
  refine ⟨smallProject_files, ?_, ?_⟩
  · exact (tour_completes _ smallProject_files (by decide) (by decide)).2.2 (fun _ => rfl)
      fun _ _ => rfl
  · -- The paths, the files and the batches are all sorted on the way.
    simp only [result, generate, tourCourse, Workspace.discover?, selectFiles, prioritize, plan,
      touredFiles, fallingBy_eq_insertionSort]
    decide +kernel

end GuidedTour
