import GuidedTour.Proofs.Review

namespace GuidedTour

/-!
# What a review lets through

Whatever the drafts say, the steps that come out of a review can be followed.

* `Step.IsPlaced` — lines are counted from 1 and a selection does not end before it begins;
* `Step.IsInside` — the step is in a file of the project, under strict bounds within its lines;
* `openingStep?` — the one step that need not be in a file of the project;
* `review_sound` — every step is placed, every step but the opening one is inside, and there are no
  more of them than asked for.
-/

variable {p : Project} {options : ReviewOptions}

/-- A step whose lines are counted from 1 and whose selection does not end before it begins. -/
structure Step.IsPlaced (step : Step) : Prop where
  line : ∀ line ∈ step.line, 1 ≤ line
  selection : ∀ s ∈ step.selection, 1 ≤ s.start.line ∧ s.start.line ≤ s.stop.line

/-- A step with no line beyond a last one. -/
structure Step.EndsBy (step : Step) (last : Nat) : Prop where
  line : ∀ line ∈ step.line, line ≤ last
  selection : ∀ s ∈ step.selection, s.start.line ≤ last ∧ s.stop.line ≤ last

/-- A step in a file of the project. Under strict bounds no line of it is beyond the lines of the
file, if the outline of the file knows of any. -/
structure Step.IsInside (p : Project) (options : ReviewOptions) (step : Step) : Prop where
  file : ∃ o ∈ p.files, o.file = step.file
  bounds : options.strictLineBounds = true → ∀ o, p.file? step.file = some o → 0 < o.lineCount →
    step.EndsBy o.lineCount

/-- The step at the start of a tour that need not be in a file of the project: the first draft, if
its title welcomes the reader. -/
def openingStep? (options : ReviewOptions) (drafts : List Draft) : Option Step :=
  ((drafts.take options.maxSteps).head?.filter Draft.isWelcome).map fun d => d.step d.file none

/-! ### One draft -/

/-- Holding lines at a last line of at least 1 spoils neither their start nor their order. -/
theorem Draft.step_isPlaced (d : Draft) (file : String) {most : Option Nat}
    (hmost : ∀ n, most = some n → 1 ≤ n) : (d.step file most).IsPlaced where
  line := fun line hline => Draft.one_le_step_line hmost hline
  selection := by
    intro s hs
    simp only [Draft.step, Option.mem_def, Option.map_eq_some_iff] at hs
    obtain ⟨given, -, rfl⟩ := hs
    -- Both lines are raised to 1, the end to the start, and then both held at `most`.
    simp only [Selection.mapLines, Selection.normalized]
    cases most with
    | none => simp only; omega
    | some n =>
      have hn := hmost n rfl
      simp only
      omega

/-- With a greatest line, a step ends by it. -/
theorem Draft.step_endsBy (d : Draft) (file : String) (last : Nat) :
    (d.step file (some last)).EndsBy last where
  line := by
    intro line hline
    simp only [Draft.step, Option.mem_def, Option.map_eq_some_iff] at hline
    obtain ⟨given, -, rfl⟩ := hline
    exact Nat.min_le_right _ _
  selection := by
    intro s hs
    simp only [Draft.step, Option.mem_def, Option.map_eq_some_iff] at hs
    obtain ⟨given, -, rfl⟩ := hs
    exact ⟨Nat.min_le_right _ _, Nat.min_le_right _ _⟩

/-- With strict bounds, the greatest line is the number of lines of the file. -/
theorem maxLine?_eq_some {file : String} {o : Outline} (hstrict : options.strictLineBounds = true)
    (ho : p.file? file = some o) (hlines : 0 < o.lineCount) :
    maxLine? p options file = some o.lineCount := by
  simp [maxLine?, hstrict, ho, hlines]

/-- A step that is kept is placed. -/
theorem reviewOne_isPlaced {index : Nat} {d : Draft} {step : Step}
    (h : reviewOne p options index d = some step) : step.IsPlaced := by
  simp only [reviewOne] at h
  split at h
  · obtain rfl := Option.some.inj h
    exact d.step_isPlaced _ fun n hn => by cases hn
  · obtain ⟨file, -, rfl⟩ := Option.map_eq_some_iff.mp h
    exact d.step_isPlaced _ fun n => one_le_maxLine

/-- A step that is held by the bound of its file is inside it. -/
theorem Draft.step_isInside (d : Draft) {file known : String} (h : knownFile? p file = some known) :
    (d.step known (maxLine? p options known)).IsInside p options where
  file := exists_of_knownFile? h
  bounds := by
    intro hstrict o ho hlines
    have hlast : maxLine? p options known = some o.lineCount :=
      maxLine?_eq_some hstrict ho hlines
    rw [hlast]
    exact d.step_endsBy known o.lineCount

/-- A step that is kept is inside its file, unless it opens the tour. -/
theorem reviewOne_isInside {index : Nat} {d : Draft} {step : Step}
    (hwelcome : (index == 0 && d.isWelcome) = false)
    (h : reviewOne p options index d = some step) : step.IsInside p options := by
  simp only [reviewOne, hwelcome, Bool.false_eq_true, if_false] at h
  obtain ⟨file, hknown, rfl⟩ := Option.map_eq_some_iff.mp h
  exact d.step_isInside hknown

/-! ### All drafts -/

/-- All steps behind the first are inside their files. -/
theorem reviewFrom_isInside {index : Nat} {drafts : List Draft} (hindex : 1 ≤ index) :
    ∀ step ∈ reviewFrom p options index drafts, step.IsInside p options := by
  intro step hstep
  obtain ⟨i, d, hi, -, hone⟩ := exists_of_mem_reviewFrom hstep
  exact reviewOne_isInside (by simp; omega) hone

/-- The opening step comes first, and all others are inside the project. -/
theorem review_eq_opening (p : Project) (options : ReviewOptions) (drafts : List Draft) :
    ∃ later, review p options drafts = (openingStep? options drafts).toList ++ later ∧
      ∀ step ∈ later, step.IsInside p options := by
  rw [review, openingStep?]
  cases drafts.take options.maxSteps with
  | nil => exact ⟨[], rfl, by simp⟩
  | cons d rest =>
    -- Only at index 0 does a welcome count, and the first draft is the only one there.
    cases hwelcome : d.isWelcome with
    | true =>
      refine ⟨reviewFrom p options 1 rest, ?_, reviewFrom_isInside (Nat.le_refl 1)⟩
      simp [reviewFrom, reviewOne, Option.filter, hwelcome]
    | false =>
      refine ⟨reviewFrom p options 0 (d :: rest), by simp [Option.filter, hwelcome], fun step hstep => ?_⟩
      rcases List.mem_append.mp hstep with hfirst | hlater
      · exact reviewOne_isInside (by simp [hwelcome]) (Option.mem_toList.mp hfirst)
      · exact reviewFrom_isInside (Nat.le_refl 1) step hlater

/-- **A review is sound.** Whatever the drafts are, there come out at most as many steps as asked
for; all lines are counted from 1 and no selection ends before it begins; and after at most one
opening step, which the first draft is if its title welcomes the reader, every step is in a file of
the project and under strict bounds within its lines. -/
theorem review_sound (p : Project) (options : ReviewOptions) (drafts : List Draft) :
    (review p options drafts).length ≤ options.maxSteps ∧
      (∀ step ∈ review p options drafts, step.IsPlaced) ∧
      ∃ later, review p options drafts = (openingStep? options drafts).toList ++ later ∧
        ∀ step ∈ later, step.IsInside p options := by
  refine ⟨review_length_le p options drafts, fun step hstep => ?_,
    review_eq_opening p options drafts⟩
  obtain ⟨i, d, -, -, hone⟩ := exists_of_mem_reviewFrom hstep
  exact reviewOne_isPlaced hone

end GuidedTour
