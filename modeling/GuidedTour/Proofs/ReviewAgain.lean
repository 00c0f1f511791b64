import GuidedTour.Proofs.DraftJson
import GuidedTour.Proofs.ReviewBounds
import GuidedTour.Proofs.ReviewEach

namespace GuidedTour

/-!
# Reviewing a tour again

The steps of a tour, taken as drafts, pass a further review as they are.

* `Step.redraft` — a step as a draft again;
* `IsSettled` — steps with nothing left to repair, to drop or to cut off;
* `Draft.step_redraft`, `reviewOne_redraft` — a placed step inside the project stays as it is at
  every place, the first one of a tour included;
* `IsSettled.review_redrafts` — so settled steps stay as they are;
* `review_isSettled` — and the steps of a review are settled;
* `review_twice` — a review changes nothing about just the settled steps, its own among them.
-/

variable {p : Project} {options : ReviewOptions} {step : Step}

/-- A step as a draft again, with its line as an integer of 64 bits. -/
def Step.redraft (step : Step) : Draft where
  title := step.title
  file := step.file
  line := step.line.map fun n => (Int64.ofNat n).toInt
  description := step.description
  selection := step.selection

/-- A step whose line is an integer of 64 bits, also with a sign. -/
def Step.HasShortLine (step : Step) : Prop := ∀ n ∈ step.line, (n : Int) ≤ int64Max

/-- Steps with nothing left to repair, to drop or to cut off: they are not too many, their lines are
in place, and all of them are inside the project but the first one, if it welcomes the reader. -/
structure IsSettled (p : Project) (options : ReviewOptions) (steps : List Step) : Prop where
  length : steps.length ≤ options.maxSteps
  placed : ∀ step ∈ steps, step.IsPlaced
  short : ∀ step ∈ steps, step.HasShortLine
  first : ∀ step ∈ steps.head?, step.title.hasText welcomeMarker = true ∨ step.IsInside p options
  later : ∀ step ∈ steps.tail, step.IsInside p options

/-! ### Nothing is left to repair -/

/-- A selection in order stays as it is. -/
theorem Selection.normalized_eq_self {s : Selection} (hstart : 1 ≤ s.start.line)
    (hstop : s.start.line ≤ s.stop.line) : s.normalized = s := by
  have hfirst : max s.start.line 1 = s.start.line := by omega
  have hlast : max s.stop.line s.start.line = s.stop.line := by omega
  rw [normalized, hfirst, hlast]

/-- A selection stays if both its lines do. -/
theorem Selection.mapLines_eq_self {f : Nat → Nat} {s : Selection}
    (hstart : f s.start.line = s.start.line) (hstop : f s.stop.line = s.stop.line) :
    s.mapLines f = s := by
  rw [mapLines, hstart, hstop]

/-- A short line is redrafted as the same number. -/
theorem Step.line_redraft (hshort : step.HasShortLine) :
    step.redraft.line = step.line.map fun n : Nat => (n : Int) := by
  refine Option.map_congr fun n hn => Int64.toInt_ofNat_of_lt ?_
  have hmax : int64Max = 2 ^ 63 - 1 := by decide
  have hn := hshort n hn
  omega

/-- A placed step with no line beyond a bound is what it becomes under that bound. -/
theorem Draft.step_redraft (hplaced : step.IsPlaced) (hshort : step.HasShortLine)
    (most : Option Nat) (hmost : ∀ n ∈ most, step.EndsBy n) :
    step.redraft.step step.file most = step := by
  -- Both the line and the selection are in their range already.
  have hline : (step.redraft.step step.file most).line = step.line := by
    rw [Draft.line_step, Step.line_redraft hshort, Option.map_map]
    refine (Option.map_congr fun n hn => ?_).trans Option.map_id'
    have hone := hplaced.line n hn
    have hfloor : (max (n : Int) 1).toNat = n := by omega
    rw [Function.comp_apply, hfloor]
    exact heldBy_eq_self fun m hm => (hmost m hm).line n hn
  have hselection : (step.redraft.step step.file most).selection = step.selection := by
    rw [Draft.selection_step]
    refine (Option.map_congr fun s hs => ?_).trans Option.map_id'
    obtain ⟨hstart, hstop⟩ := hplaced.selection s hs
    rw [Selection.normalized_eq_self hstart hstop]
    exact Selection.mapLines_eq_self (heldBy_eq_self fun n hn => ((hmost n hn).selection s hs).1)
      (heldBy_eq_self fun n hn => ((hmost n hn).selection s hs).2)
  calc step.redraft.step step.file most
      = ⟨step.title, step.file, (step.redraft.step step.file most).line, step.description,
          (step.redraft.step step.file most).selection⟩ := rfl
    _ = step := by rw [hline, hselection]

/-- A listed path that is tidy is known as itself. -/
theorem knownFile?_self {file : String} (hlisted : p.Lists file) (hne : file ≠ "")
    (htidy : tidyPath file = file) : knownFile? p file = some file := by
  have htidied : p.Lists (tidyPath file) := by rwa [htidy]
  have hknown := knownFile?_listed (by rwa [htidy]) htidied
  rwa [htidy] at hknown

/-- The bound for a file is the number of its lines. -/
theorem Step.IsInside.endsBy_maxLine (h : step.IsInside p options) :
    ∀ n ∈ maxLine? p options step.file, step.EndsBy n := by
  intro n hn
  rw [Option.mem_def, maxLine?] at hn
  split at hn
  · rename_i hstrict
    obtain ⟨hlines, hpos⟩ := Option.filter_eq_some_iff.mp hn
    obtain ⟨o, ho, rfl⟩ := Option.map_eq_some_iff.mp hlines
    exact h.bounds hstrict o ho (of_decide_eq_true hpos)
  · cases hn

/-! ### One step -/

/-- A step inside the project is what it becomes once more, whatever its place. Where it opens the
tour, it need not even be looked for. -/
theorem reviewOne_redraft (htidy : ∀ o ∈ p.files, o.file ≠ "" ∧ tidyPath o.file = o.file)
    (hplaced : step.IsPlaced) (hshort : step.HasShortLine) (hinside : step.IsInside p options)
    (index : Nat) : reviewOne p options index step.redraft = some step := by
  by_cases hopens : step.redraft.Opens index
  · rw [reviewOne_of_opens hopens]
    exact congrArg some (Draft.step_redraft hplaced hshort none (by simp))
  · obtain ⟨o, ho, hfile⟩ := hinside.file
    obtain ⟨hne, hself⟩ := htidy o ho
    rw [hfile] at hne hself
    have hknown : knownFile? p step.redraft.file = some step.file :=
      knownFile?_self ⟨o, ho, hfile⟩ hne hself
    rw [reviewOne_of_not_opens hopens, hknown, Option.map_some,
      Draft.step_redraft hplaced hshort _ hinside.endsBy_maxLine]

/-- A step that welcomes the reader opens the tour, wherever it is. -/
theorem reviewOne_redraft_welcome (hwelcome : step.title.hasText welcomeMarker = true)
    (hplaced : step.IsPlaced) (hshort : step.HasShortLine) :
    reviewOne p options 0 step.redraft = some step := by
  have hopens : step.redraft.Opens 0 := Draft.opens_iff.mpr hwelcome
  rw [reviewOne_of_opens hopens]
  exact congrArg some (Draft.step_redraft hplaced hshort none (by simp))

/-! ### Settled steps stay -/

/-- If each step comes back by itself, all of them do. -/
theorem reviewFrom_redrafts {steps : List Step} (index : Nat)
    (h : ∀ step ∈ steps, ∀ i, reviewOne p options i step.redraft = some step) :
    reviewFrom p options index (steps.map Step.redraft) = steps := by
  induction steps generalizing index with
  | nil => rfl
  | cons step steps ih =>
    rw [List.map_cons, reviewFrom, h step List.mem_cons_self,
      ih (index + 1) fun other hother => h other (List.mem_cons_of_mem step hother)]
    rfl

/-- Settled steps come back from a second review. -/
theorem IsSettled.review_redrafts {steps : List Step}
    (htidy : ∀ o ∈ p.files, o.file ≠ "" ∧ tidyPath o.file = o.file)
    (h : IsSettled p options steps) : review p options (steps.map Step.redraft) = steps := by
  have htake : (steps.map Step.redraft).take options.maxSteps = steps.map Step.redraft :=
    List.take_of_length_le (by simpa using h.length)
  rw [review, htake]
  cases steps with
  | nil => rfl
  | cons first later =>
    have hplaced := h.placed first List.mem_cons_self
    have hshort := h.short first List.mem_cons_self
    have hfirst : reviewOne p options 0 first.redraft = some first := by
      rcases h.first first rfl with hwelcome | hinside
      · exact reviewOne_redraft_welcome hwelcome hplaced hshort
      · exact reviewOne_redraft htidy hplaced hshort hinside 0
    -- The later steps are inside the project, so it does not matter which places they have now.
    have hlater : ∀ step ∈ later, ∀ i, reviewOne p options i step.redraft = some step := by
      intro step hstep i
      have hmem := List.mem_cons_of_mem first hstep
      exact reviewOne_redraft htidy (h.placed step hmem) (h.short step hmem)
        (h.later step hstep) i
    rw [List.map_cons, reviewFrom, hfirst, reviewFrom_redrafts 1 hlater]
    rfl

/-! ### The steps of a review are settled -/

/-- A line is never raised but to 1. -/
theorem Draft.step_hasShortLine {d : Draft} (h : ∀ z ∈ d.line, z ≤ int64Max) (file : String)
    (most : Option Nat) : (d.step file most).HasShortLine := by
  intro n hn
  rw [Draft.line_step, Option.mem_def, Option.map_eq_some_iff] at hn
  obtain ⟨line, hline, rfl⟩ := hn
  have hone : 1 ≤ int64Max := by decide
  have hmax := h line hline
  cases most with
  | none => simp only [heldBy]; omega
  | some most => simp only [heldBy]; omega

/-- A redrafted line fits in 64 bits. -/
theorem Step.redraft_line_le (step : Step) : ∀ z ∈ step.redraft.line, z ≤ int64Max := by
  intro z hz
  obtain ⟨n, -, rfl⟩ := Option.map_eq_some_iff.mp hz
  have hmax : int64Max = 2 ^ 63 - 1 := by decide
  have hlt := (Int64.ofNat n).toInt_lt
  omega

/-- The opening step has the title of the draft that welcomes the reader. -/
theorem welcomes_of_mem_openingStep? {drafts : List Draft}
    (h : step ∈ openingStep? options drafts) : step.title.hasText welcomeMarker = true := by
  obtain ⟨d, hd, rfl⟩ := Option.map_eq_some_iff.mp h
  exact (Option.filter_eq_some_iff.mp hd).2

/-- The steps of a review are settled. -/
theorem review_isSettled {drafts : List Draft} (h : ∀ d ∈ drafts, ∀ z ∈ d.line, z ≤ int64Max) :
    IsSettled p options (review p options drafts) := by
  have hone : ∀ step ∈ review p options drafts, step.IsPlaced ∧ step.HasShortLine := by
    intro step hstep
    obtain ⟨i, d, -, hd, hone⟩ := exists_of_mem_reviewFrom hstep
    obtain ⟨file, most, rfl, -⟩ := exists_eq_step hone
    exact ⟨reviewOne_isPlaced hone,
      Draft.step_hasShortLine (h d (List.mem_of_mem_take hd)) file most⟩
  obtain ⟨later, hreview, hinside⟩ := review_eq_opening p options drafts
  -- Only the opening step may be outside of the project, and it comes first.
  have hends : (∀ step ∈ (review p options drafts).head?,
        step.title.hasText welcomeMarker = true ∨ step.IsInside p options) ∧
      ∀ step ∈ (review p options drafts).tail, step.IsInside p options := by
    rw [hreview]
    cases hopening : openingStep? options drafts with
    | none =>
      exact ⟨fun step hstep => .inr (hinside step (List.mem_of_mem_head? hstep)),
        fun step hstep => hinside step (List.mem_of_mem_tail hstep)⟩
    | some opening =>
      refine ⟨fun step hstep => ?_, hinside⟩
      obtain rfl : opening = step := Option.some.inj hstep
      exact .inl (welcomes_of_mem_openingStep? hopening)
  exact ⟨review_length_le p options drafts, fun step hstep => (hone step hstep).1,
    fun step hstep => (hone step hstep).2, hends.1, hends.2⟩

/-- **A tour passes a second review as it is.** Where the files of the project are listed under
tidy paths, a review leaves steps, taken as drafts, as they are exactly if they are settled; and the
steps that come out of a review are, even if a drop has made another one of them the first. -/
theorem review_twice (p : Project) (options : ReviewOptions)
    (htidy : ∀ o ∈ p.files, o.file ≠ "" ∧ tidyPath o.file = o.file) :
    (∀ steps : List Step,
        review p options (steps.map Step.redraft) = steps ↔ IsSettled p options steps) ∧
      ∀ drafts : List Draft, (∀ d ∈ drafts, d.IsSized) →
        review p options ((review p options drafts).map Step.redraft) =
          review p options drafts := by
  refine ⟨fun steps => ⟨fun h => ?_, fun h => h.review_redrafts htidy⟩, fun drafts hsized => ?_⟩
  · have hsettled : IsSettled p options (review p options (steps.map Step.redraft)) := by
      refine review_isSettled fun d hd => ?_
      obtain ⟨step, -, rfl⟩ := List.mem_map.mp hd
      exact step.redraft_line_le
    rwa [h] at hsettled
  · have hsettled : IsSettled p options (review p options drafts) :=
      review_isSettled fun d hd z hz => ((hsized d hd).line z hz).2
    exact hsettled.review_redrafts htidy

/-- The first draft is lost, so the step of the second one, which stands in another file and was held
at its last line, opens the tour the second time. The last draft is one too many. -/
theorem review_twice_movedWelcome :
    let options : ReviewOptions := { maxSteps := 3, strictLineBounds := true }
    let drafts : List Draft :=
      [{ title := "Gone", file := "gone.ts" },
        { title := "Welcome aboard", file := "lib\\UTIL.ts", line := some 99,
          selection := some ⟨⟨12, 4⟩, ⟨3, 0⟩⟩ },
        { title := "Helpers", file := "src/b/util.ts", line := some (-3) },
        { title := "More helpers", file := "src/b/util.ts" }]
    let steps : List Step :=
      [⟨"Welcome aboard", "src/a/Util.ts", some 10, "", some ⟨⟨10, 4⟩, ⟨10, 0⟩⟩⟩,
        ⟨"Helpers", "src/b/util.ts", some 1, "", none⟩]
    (∀ o ∈ lookAlikes.files, o.file ≠ "" ∧ tidyPath o.file = o.file) ∧
      (∀ d ∈ drafts, d.IsSized) ∧ review lookAlikes options drafts = steps ∧
      review lookAlikes options (steps.map Step.redraft) = steps ∧
      IsSettled lookAlikes options steps := by
  intro options drafts steps
  have htidy : ∀ o ∈ lookAlikes.files, o.file ≠ "" ∧ tidyPath o.file = o.file := by
    decide +kernel
  have hsized : ∀ d ∈ drafts, d.IsSized := by decide +kernel
  have hsteps : review lookAlikes options drafts = steps := by decide +kernel
  obtain ⟨hsettled, htwice⟩ := review_twice lookAlikes options htidy
  -- The second review is not run; it follows from the first.
  have hagain : review lookAlikes options (steps.map Step.redraft) = steps := by
    have hdrafts := htwice drafts hsized
    rwa [hsteps] at hdrafts
  exact ⟨htidy, hsized, hsteps, hagain, (hsettled steps).mp hagain⟩

end GuidedTour
