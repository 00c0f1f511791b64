import GuidedTour.Proofs.Welcome
import GuidedTour.Tour.Review

namespace GuidedTour

/-!
# What a review keeps

A draft passes the review only as a step in a file of the project; the first draft of a tour may
also pass as a welcome.

* `Step.IsKept` — a step in a file of the project, with its line inside;
* `Step.IsWelcome` — a step that opens a tour;
* `reviewFrom_isKept` — every step after the first is kept in this sense;
* `review_welcome` — a fit welcome opens the tour, whatever comes after it.
-/

variable {p : Project} {options : ReviewOptions}

/-- A step in a file of the project that points at a line from 1 on, if at any. -/
structure Step.IsKept (p : Project) (step : Step) : Prop where
  file : ∃ o ∈ p.files, o.file = step.file
  line : ∀ line, step.line = some line → 1 ≤ line

/-- A step that welcomes the reader, points at a line from 1 on and says something. -/
structure Step.IsWelcome (step : Step) : Prop where
  title : step.title.hasText welcomeMarker = true
  line : ∃ line, step.line = some line ∧ 1 ≤ line
  description : step.description.isAllBlank = false

/-- A known file is one of the files of the project. -/
theorem exists_of_knownFile? {file known : String} (h : knownFile? p file = some known) :
    ∃ o ∈ p.files, o.file = known := by
  simp only [knownFile?] at h
  split at h
  · cases h
  · split at h
    · rename_i hlisted
      obtain rfl := Option.some.inj h
      simpa [Project.containsFile] using hlisted
    · exact List.mem_map.mp (List.mem_of_find?_eq_some h)

/-- The greatest line is not below the first one. -/
theorem one_le_maxLine {file : String} {most : Nat} (h : maxLine? p options file = some most) :
    1 ≤ most := by
  unfold maxLine? at h
  split at h
  · exact of_decide_eq_true (Option.filter_eq_some_iff.mp h).2
  · cases h

/-- A line held at or below a bound, where there is one. -/
def heldBy (most : Option Nat) (line : Nat) : Nat :=
  match most with
  | some n => min line n
  | none => line

/-- A line within the bound stays. -/
theorem heldBy_eq_self {most : Option Nat} {line : Nat} (h : ∀ n ∈ most, line ≤ n) :
    heldBy most line = line := by
  cases most with
  | none => rfl
  | some n => exact Nat.min_eq_left (h n rfl)

theorem Draft.line_step (d : Draft) (file : String) (most : Option Nat) :
    (d.step file most).line = d.line.map fun line => heldBy most (max line 1).toNat := rfl

/-- The selection of a step is that of its draft, put in order and held by the bound. -/
theorem Draft.selection_step (d : Draft) (file : String) (most : Option Nat) :
    (d.step file most).selection = d.selection.map fun s => s.normalized.mapLines (heldBy most) :=
  rfl

/-- The line of a step is the first one at least. -/
theorem Draft.one_le_step_line {d : Draft} {file : String} {most : Option Nat} {line : Nat}
    (hmost : ∀ n, most = some n → 1 ≤ n) (h : (d.step file most).line = some line) : 1 ≤ line := by
  simp only [Draft.step, Option.map_eq_some_iff] at h
  obtain ⟨given, -, rfl⟩ := h
  cases most with
  | none => simp only; omega
  | some n =>
    have hn := hmost n rfl
    simp only
    omega

/-- A draft behind the first that is kept becomes a step that may be kept. -/
theorem reviewOne_isKept {index : Nat} {d : Draft} {step : Step} (hindex : 1 ≤ index)
    (h : reviewOne p options index d = some step) : step.IsKept p := by
  have hlater : (index == 0) = false := by simp; omega
  simp only [reviewOne, hlater, Bool.false_and, Bool.false_eq_true, if_false,
    Option.map_eq_some_iff] at h
  obtain ⟨file, hknown, rfl⟩ := h
  exact ⟨exists_of_knownFile? hknown, fun line => Draft.one_le_step_line fun n => one_le_maxLine⟩

/-- Every step that comes out of a review is what one draft becomes. -/
theorem exists_of_mem_reviewFrom {index : Nat} {drafts : List Draft} {step : Step}
    (h : step ∈ reviewFrom p options index drafts) :
    ∃ i d, index ≤ i ∧ d ∈ drafts ∧ reviewOne p options i d = some step := by
  induction drafts generalizing index with
  | nil => simp [reviewFrom] at h
  | cons d rest ih =>
    rcases List.mem_append.mp h with hfirst | hrest
    · exact ⟨index, d, Nat.le_refl _, List.mem_cons_self, Option.mem_toList.mp hfirst⟩
    · obtain ⟨i, e, hi, he, hone⟩ := ih hrest
      exact ⟨i, e, Nat.le_of_succ_le hi, List.mem_cons_of_mem d he, hone⟩

/-- Every step after the first is in a file of the project. -/
theorem reviewFrom_isKept {index : Nat} {drafts : List Draft} (hindex : 1 ≤ index) :
    ∀ step ∈ reviewFrom p options index drafts, step.IsKept p := by
  intro step hstep
  obtain ⟨i, d, hi, -, hone⟩ := exists_of_mem_reviewFrom hstep
  exact reviewOne_isKept (Nat.le_trans hindex hi) hone

/-- There are no more steps than drafts. -/
theorem reviewFrom_length_le (p : Project) (options : ReviewOptions) (index : Nat)
    (drafts : List Draft) : (reviewFrom p options index drafts).length ≤ drafts.length := by
  induction drafts generalizing index with
  | nil => simp [reviewFrom]
  | cons d rest ih =>
    have hone : (reviewOne p options index d).toList.length ≤ 1 := by
      cases reviewOne p options index d <;> simp
    have hrest := ih (index + 1)
    simp only [reviewFrom, List.length_append, List.length_cons]
    omega

/-- There are no more steps than the limit allows. -/
theorem review_length_le (p : Project) (options : ReviewOptions) (drafts : List Draft) :
    (review p options drafts).length ≤ options.maxSteps :=
  Nat.le_trans (reviewFrom_length_le _ _ _ _) (List.length_take_le _ _)

/-- A fit welcome becomes a step that opens a tour. -/
theorem Draft.IsFitWelcome.step {d : Draft} (h : d.IsFitWelcome) (file : String) :
    (d.step file none).IsWelcome where
  title := h.title
  line := by
    obtain ⟨line, hline, hle⟩ := h.line
    exact ⟨(max line 1).toNat, by simp [Draft.step, hline], by omega⟩
  description := h.description

/-- A fit welcome opens the tour, and every later step is in a file of the project. -/
theorem review_welcome {welcome : Draft} (hwelcome : welcome.IsFitWelcome)
    (hsteps : 1 ≤ options.maxSteps) (drafts : List Draft) :
    ∃ first later, review p options (welcome :: drafts) = first :: later ∧ first.IsWelcome ∧
      ∀ step ∈ later, step.IsKept p := by
  obtain ⟨n, hn⟩ : ∃ n, options.maxSteps = n + 1 := ⟨options.maxSteps - 1, by omega⟩
  refine ⟨welcome.step welcome.file none, reviewFrom p options 1 (drafts.take n), ?_,
    hwelcome.step _, reviewFrom_isKept (Nat.le_refl 1)⟩
  -- The first draft need not point at a file of the project, for its title welcomes the reader.
  have hone : reviewOne p options 0 welcome = some (welcome.step welcome.file none) := by
    simp [reviewOne, Draft.isWelcome, hwelcome.title]
  simp [review, hn, reviewFrom, hone]

end GuidedTour
