import GuidedTour.Proofs.KnownFile
import GuidedTour.Proofs.Review
import Mathlib.Data.List.ReduceOption

namespace GuidedTour

/-!
# What becomes of each draft

A review looks at one draft at a time. What becomes of a draft hangs on its place and on what it
says itself, and on no other draft.

* `Draft.Opens` — the draft may open the tour without a file of the project;
* `Draft.IsReviewed` — the step that a draft at a place becomes, or that it is lost;
* `reviewFrom_append` — drafts reviewed in two parts;
* `review_draftwise` — a review is a map over its drafts, each of which fares as it should, and more
  steps only add to the end.
-/

variable {p : Project} {options : ReviewOptions} {index : Nat} {d : Draft}

/-- A draft may stand without a file of the project: it is the first one, and its title welcomes the
reader. -/
def Draft.Opens (d : Draft) (index : Nat) : Prop :=
  index = 0 ∧ welcomeMarker.toList <:+: d.title.toList

/-- What becomes of the draft at an index, where `tidy` is what is left of its path. -/
structure Draft.IsReviewed (p : Project) (index : Nat) (d : Draft) (tidy : String)
    (result : Option Step) : Prop where
  /-- Blanks, backslashes, and `./` and slashes at the start are taken off the path. -/
  tidied : IsTidied d.file.toList tidy.toList
  /-- A step that comes of the draft says what the draft says. -/
  words : ∀ step ∈ result, step.title = d.title ∧ step.description = d.description
  /-- An opening draft is kept in its own file. -/
  opening : d.Opens index → ∃ step, result = some step ∧ step.file = d.file
  /-- Any other draft is lost if its path is empty, or it is neither listed nor shares its name with
  a file; and only then. -/
  lost : ¬ d.Opens index →
    (result = none ↔ tidy = "" ∨ ¬ p.Lists tidy ∧ ∀ o ∈ p.files, ¬ ShareName o.file tidy)
  /-- A path that is listed is the file of the step. -/
  listed : ¬ d.Opens index → p.Lists tidy → ∀ step ∈ result, step.file = tidy
  /-- Else the first file that shares the name is. -/
  named : ¬ d.Opens index → ¬ p.Lists tidy → ∀ step ∈ result, p.IsFirstNamed tidy step.file

/-! ### One draft -/

theorem Draft.opens_iff : d.Opens index ↔ (index == 0 && d.isWelcome) = true := by
  simp [Opens, isWelcome, String.hasText, Text.contains_iff_infix]

/-- The draft that opens a tour keeps its file, whatever that is. -/
theorem reviewOne_of_opens (h : d.Opens index) :
    reviewOne p options index d = some (d.step d.file none) := by
  rw [reviewOne, if_pos (Draft.opens_iff.mp h)]

/-- A draft that does not open the tour takes the file that is known for it, or is lost. -/
theorem reviewOne_of_not_opens (h : ¬ d.Opens index) :
    reviewOne p options index d =
      (knownFile? p d.file).map fun file => d.step file (maxLine? p options file) := by
  rw [reviewOne, if_neg (mt Draft.opens_iff.mpr h)]

/-- A step that comes of a draft says what the draft says, in its own file or the one it points
at. -/
theorem exists_eq_step {step : Step} (h : reviewOne p options index d = some step) :
    ∃ file most, step = d.step file most ∧
      (d.Opens index ∧ file = d.file ∨ ¬ d.Opens index ∧ knownFile? p d.file = some file) := by
  by_cases hopens : d.Opens index
  · rw [reviewOne_of_opens hopens] at h
    exact ⟨d.file, none, (Option.some.inj h).symm, .inl ⟨hopens, rfl⟩⟩
  · rw [reviewOne_of_not_opens hopens] at h
    obtain ⟨file, hfile, rfl⟩ := Option.map_eq_some_iff.mp h
    exact ⟨file, _, rfl, .inr ⟨hopens, hfile⟩⟩

/-- A draft that does not open the tour becomes a step in the file it points at. -/
theorem knownFile?_of_reviewOne {step : Step} (hopens : ¬ d.Opens index)
    (h : reviewOne p options index d = some step) : knownFile? p d.file = some step.file := by
  obtain ⟨file, most, rfl, ⟨hopens', -⟩ | ⟨-, hfile⟩⟩ := exists_eq_step h
  · exact absurd hopens' hopens
  · exact hfile

/-- A draft is reviewed as it should be. -/
theorem reviewOne_isReviewed (p : Project) (options : ReviewOptions) (index : Nat) (d : Draft) :
    d.IsReviewed p index (tidyPath d.file) (reviewOne p options index d) where
  tidied := isTidied_tidyPath d.file
  words := by
    intro step hstep
    obtain ⟨file, most, rfl, -⟩ := exists_eq_step hstep
    exact ⟨rfl, rfl⟩
  opening := fun hopens => ⟨_, reviewOne_of_opens hopens, rfl⟩
  lost := by
    intro hopens
    rw [reviewOne_of_not_opens hopens, Option.map_eq_none_iff, knownFile?_eq_none_iff]
  listed := by
    intro hopens hlisted step hstep
    have hknown := knownFile?_of_reviewOne hopens hstep
    -- The known file is the listed one, or else the first of its name.
    obtain ⟨-, ⟨-, hfile⟩ | ⟨hunlisted, -⟩⟩ := knownFile?_eq_some_iff.mp hknown
    · exact hfile
    · exact absurd hlisted hunlisted
  named := by
    intro hopens hunlisted step hstep
    have hknown := knownFile?_of_reviewOne hopens hstep
    obtain ⟨-, ⟨hlisted, -⟩ | ⟨-, hfirst⟩⟩ := knownFile?_eq_some_iff.mp hknown
    · exact absurd hlisted hunlisted
    · exact hfirst

/-! ### All drafts -/

/-- Drafts are reviewed one after the other. -/
theorem reviewFrom_append (index : Nat) (before after : List Draft) :
    reviewFrom p options index (before ++ after) =
      reviewFrom p options index before ++
        reviewFrom p options (index + before.length) after := by
  induction before generalizing index with
  | nil => rfl
  | cons d before ih =>
    rw [List.cons_append, reviewFrom, ih, reviewFrom, List.append_assoc, List.length_cons,
      Nat.add_assoc, Nat.add_comm 1]

/-- Each draft is reviewed by itself, and those that are lost are left out. -/
theorem reviewFrom_eq_mapIdx (index : Nat) (drafts : List Draft) :
    reviewFrom p options index drafts =
      (drafts.mapIdx fun i d => reviewOne p options (index + i) d).reduceOption := by
  induction drafts generalizing index with
  | nil => rfl
  | cons d rest ih =>
    have hshift : ∀ i, index + 1 + i = index + (i + 1) := fun i => by omega
    rw [reviewFrom, ih, List.mapIdx_cons]
    simp only [hshift, Nat.add_zero]
    cases reviewOne p options index d with
    | none => rfl
    | some step => rfl

/-- How many steps there may be does not matter to the drafts that are looked at. -/
theorem reviewFrom_maxSteps (most index : Nat) (drafts : List Draft) :
    reviewFrom p { options with maxSteps := most } index drafts =
      reviewFrom p options index drafts := by
  induction drafts generalizing index with
  | nil => rfl
  | cons d rest ih =>
    have hone : reviewOne p { options with maxSteps := most } index d =
        reviewOne p options index d := rfl
    rw [reviewFrom, reviewFrom, hone, ih]

/-- With more steps a review only goes on behind its end. -/
theorem review_prefix_of_le (p : Project) (options : ReviewOptions) (drafts : List Draft)
    {fewer more : Nat} (h : fewer ≤ more) :
    review p { options with maxSteps := fewer } drafts <+:
      review p { options with maxSteps := more } drafts := by
  obtain ⟨rest, hrest⟩ : drafts.take fewer <+: drafts.take more := List.take_prefix_take_left h
  simp only [review, reviewFrom_maxSteps, ← hrest, reviewFrom_append]
  exact List.prefix_append _ _

/-- **A review takes each draft for itself.** The steps are those that the first drafts become, as
many as may be, in their order; what each becomes hangs on its own place and words alone, and is
what it should be; and with more steps to come, the review goes on where it ended. -/
theorem review_draftwise (p : Project) (options : ReviewOptions) (drafts : List Draft) :
    review p options drafts =
        ((drafts.take options.maxSteps).mapIdx (reviewOne p options)).reduceOption ∧
      (∀ index (d : Draft), d.IsReviewed p index (tidyPath d.file) (reviewOne p options index d)) ∧
      ∀ fewer more, fewer ≤ more →
        review p { options with maxSteps := fewer } drafts <+:
          review p { options with maxSteps := more } drafts := by
  refine ⟨?_, reviewOne_isReviewed p options,
    fun fewer more => review_prefix_of_le p options drafts⟩
  rw [review, reviewFrom_eq_mapIdx]
  simp only [Nat.zero_add]

/-- A project with two files of one name. -/
def lookAlikes : Project where
  root := "/w"
  files := ["src/a/Util.ts", "src/b/util.ts"].map fun file => ⟨file, "typescript", [], [], [], 10⟩
  entryPoints := []
  dependencies := []

/-- A welcome in no file, the first of two files of one name, a path that is tidied up, an unknown
file and an empty path. -/
theorem review_draftwise_lookAlikes :
    let drafts : List Draft :=
      [{ title := "Welcome!", file := "README.md" }, { file := "lib\\UTIL.ts" },
        { file := " ././/src/b/util.ts" }, { file := "gone.ts" }, { file := " ./" }]
    (review lookAlikes {} drafts).map Step.file = ["README.md", "src/a/Util.ts", "src/b/util.ts"] ∧
      2 ≤ 4 ∧ review lookAlikes { maxSteps := 2 } drafts <+:
        review lookAlikes { maxSteps := 4 } drafts := by
  intro drafts
  exact ⟨by decide +kernel, by decide,
    (review_draftwise lookAlikes {} drafts).2.2 2 4 (by decide)⟩

end GuidedTour
