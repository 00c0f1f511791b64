import GuidedTour.Proofs.Tour

namespace GuidedTour

/-!
# Calling a run off

A run may be called off before it begins, at any milestone and at any moment while requests are
under way.

* `tour_calledOff` — a run that is called off brings no report, and asks only for what remains of
  the round that was announced; a run that is not called off brings a report.
-/

variable (around : Surroundings) {workspace : Workspace} {parser : Parser} {options : RunOptions}
  {files : List String} (isCancelled : Bool)

/-- **A run that is called off ends without a report.** Whatever order things happen in, a run whose
files are found and whose welcome does not crash comes to an end. It ends as called off exactly if
it was called off, and after that only the remaining requests of the announced round are made. So
it is with what is generated. -/
theorem tour_calledOff (hfiles : workspace.discover? options.discovery = some files)
    (hwelcome : ((around.service.endings 0 (workspace.welcomeRequest parser options files)).within
      options.batches.timeout).2 ≠ .crashed) :
    let k := around.conditions options.batches.timeout
    let start := tourStart workspace parser options isCancelled
    let generated := (generate around workspace parser options).outcome isCancelled
    Scene.Inevitable k Scene.IsFinished start ∧
      (∀ s, Scene.Reaches k start s →
        (∀ result, s.activity = .going (.finished result) →
          (.calledOff ∈ s.history → result = .error .cancelled) ∧
          (.calledOff ∉ s.history → ∃ report, result = .ok report)) ∧
        ∀ before between number request,
          before ++ .calledOff :: between ++ [.made number request] <+: s.history →
            Remains 0 (tourRounds workspace parser options) before number request) ∧
      (generated.2.isCancelled = true → generated.1 = .error .cancelled) ∧
      (generated.2.isCancelled = false → ∃ report, generated.1 = .ok report) := by
  intro k start generated
  have hresult : ∀ s result, Scene.Reaches k start s → s.activity = .going (.finished result) →
      (s.isCancelled = true → result = .error .cancelled) ∧
      (s.isCancelled = false → ∃ report, result = .ok report) := by
    intro s result hrun hfinished
    have houtcome := tour_isOutcome hfiles hwelcome hrun hfinished
    refine ⟨fun hcalled => ?_, fun hrunning => ?_⟩
    · rwa [hcalled] at houtcome
    · rw [hrunning] at houtcome
      obtain ⟨report, -, heq⟩ := houtcome
      exact ⟨report, heq⟩
  refine ⟨Scene.inevitably_finished k start, fun s hrun => ⟨fun result hfinished => ?_, ?_⟩, ?_⟩
  · have hflag := (tour_inOrder hrun).flag
    obtain ⟨hcancelled, hreport⟩ := hresult s result hrun hfinished
    refine ⟨fun hcalled => hcancelled (hflag.mpr hcalled), fun hnever => hreport ?_⟩
    exact Bool.eq_false_iff.mpr fun hcalled => hnever (hflag.mp hcalled)
  · exact fun before between number request => (tour_inOrder hrun).after_calledOff
  · obtain ⟨s, hrun, hmirrors, hfinished⟩ :=
      generate_exists_run around workspace parser options isCancelled
    rw [← hmirrors.isCancelled]
    exact hresult s generated.1 hrun hfinished

/-- A run over a small project that the service never answers, called off at its first group of
batches. The two requests of that group are still made after the one for the welcome, and those of
the second group are not. -/
theorem tour_calledOff_atFirstGroup :
    let generated := (generate ⟨fun _ _ => ⟨false, .never⟩, (· == .batchGroup 1 2)⟩ smallProject
      (.ofTrees .empty []) smallOptions).outcome false
    smallProject.discover? smallOptions.discovery = some (smallTexts.map Prod.fst) ∧
      (generated.2.isCancelled, generated.2.milestones, generated.2.exchanges.length) =
        (true, [.discovering, .analyzed 3, .welcome, .batchGroup 1 2, .validating], 3) ∧
      generated.1 = .error .cancelled := by
  intro generated
  have hjournal : (generated.2.isCancelled, generated.2.milestones,
      generated.2.exchanges.length) =
        (true, [.discovering, .analyzed 3, .welcome, .batchGroup 1 2, .validating], 3) := by
    simp only [generated, generate, tourCourse, Workspace.discover?, selectFiles, prioritize, plan,
      touredFiles, fallingBy_eq_insertionSort]
    decide +kernel
  -- The journal is computed; that the run says it was called off follows from it.
  have hcalled : generated.2.isCancelled = true := (Prod.mk.inj hjournal).1
  exact ⟨smallProject_files, hjournal,
    (tour_calledOff _ false smallProject_files (by decide)).2.2.1 hcalled⟩

end GuidedTour
