import GuidedTour.Proofs.ReviewEach

namespace GuidedTour

/-!
# Drafts that name a listed path

A draft may name a file of the project exactly as the file is listed. Its path is tidied up before
it is looked for, and so the file is found for sure only if its path is tidy already.

* `Project.Keeps` — the paths that a review leaves as they are;
* `knownFile?_eq_self_iff` — a listed path points at its own file exactly if it is one of these;
* `review_listed_iff` — and exactly then its draft is kept where it is;
* `review_loses_listed` — a file with a backslash in its name, and what becomes of its draft.
-/

variable {p : Project} {options : ReviewOptions} {d : Draft}

/-- A path that a review leaves as it is: a tidy one, or else one that becomes a path that is not
listed and is the first to share its name. -/
def Project.Keeps (p : Project) (path : String) : Prop :=
  IsTidy path.toList ∨ ∃ tidy : String, IsTidied path.toList tidy.toList ∧ tidy ≠ "" ∧
    ¬ p.Lists tidy ∧ p.IsFirstNamed tidy path

/-- A listed path points at its own file exactly if a review leaves it as it is. -/
theorem knownFile?_eq_self_iff {path : String} (hlisted : p.Lists path) :
    knownFile? p path = some path ↔ p.Keeps path := by
  rw [knownFile?_eq_some_iff]
  constructor
  · rintro ⟨hne, ⟨-, hself⟩ | ⟨hunlisted, hfirst⟩⟩
    · exact .inl (isTidy_iff.mpr ⟨hself ▸ hne, hself.symm⟩)
    · exact .inr ⟨tidyPath path, isTidied_tidyPath path, hne, hunlisted, hfirst⟩
  · rintro (htidy | ⟨tidy, htidied, hne, hunlisted, hfirst⟩)
    · obtain ⟨hne, hself⟩ := isTidy_iff.mp htidy
      rw [hself]
      exact ⟨hne, .inl ⟨hlisted, rfl⟩⟩
    · obtain rfl : tidy = tidyPath path := String.toList_injective htidied.eq_tidyPath
      exact ⟨hne, .inr ⟨hunlisted, hfirst⟩⟩

/-- A draft in a listed file becomes a step in that file exactly if it opens the tour or a review
leaves its path as it is. -/
theorem reviewOne_listed_iff (options : ReviewOptions) {index : Nat} (hlisted : p.Lists d.file) :
    (∃ step, reviewOne p options index d = some step ∧ step.file = d.file) ↔
      d.Opens index ∨ p.Keeps d.file := by
  by_cases hopens : d.Opens index
  · simp only [hopens, true_or, iff_true]
    exact ⟨_, reviewOne_of_opens hopens, rfl⟩
  · rw [← knownFile?_eq_self_iff hlisted]
    simp only [hopens, false_or]
    constructor
    · rintro ⟨step, hstep, hfile⟩
      rw [knownFile?_of_reviewOne hopens hstep, hfile]
    · intro hknown
      rw [reviewOne_of_not_opens hopens, hknown]
      exact ⟨_, rfl, rfl⟩

/-- The last draft that is looked at adds what it becomes. -/
theorem review_append_draft {before : List Draft} (hindex : before.length < options.maxSteps) :
    review p options (before ++ [d]) =
      review p options before ++ (reviewOne p options before.length d).toList := by
  have htake : (before ++ [d]).take options.maxSteps = before ++ [d] :=
    List.take_of_length_le (by rw [List.length_append]; exact hindex)
  rw [review, review, htake, List.take_of_length_le hindex.le, reviewFrom_append]
  simp [reviewFrom]

/-- Later drafts change nothing about the steps before them. -/
theorem review_isPrefix_append {before : List Draft} (hlength : before.length ≤ options.maxSteps)
    (after : List Draft) : review p options before <+: review p options (before ++ after) := by
  rw [review, review, List.take_append, List.take_of_length_le hlength, reviewFrom_append]
  exact List.prefix_append _ _

/-- **A draft in a listed file is kept in that file** exactly if it opens the tour or a review
leaves its path as it is, whatever the drafts before it and after it are. Every tidy path is left
as it is. -/
theorem review_listed_iff (p : Project) (options : ReviewOptions) (before after : List Draft)
    (d : Draft) (hlisted : p.Lists d.file) (hindex : before.length < options.maxSteps) :
    review p options (before ++ [d]) <+: review p options (before ++ [d] ++ after) ∧
      ((∃ step, review p options (before ++ [d]) = review p options before ++ [step] ∧
          step.title = d.title ∧ step.description = d.description ∧ step.file = d.file) ↔
        d.Opens before.length ∨ p.Keeps d.file) := by
  refine ⟨review_isPrefix_append (by rw [List.length_append]; exact hindex) after, ?_⟩
  rw [review_append_draft hindex, ← reviewOne_listed_iff options hlisted]
  refine exists_congr fun step => ?_
  rw [List.append_cancel_left_eq, Option.toList_eq_singleton_iff]
  refine ⟨fun ⟨hone, _, _, hfile⟩ => ⟨hone, hfile⟩, fun ⟨hone, hfile⟩ => ?_⟩
  obtain ⟨file, most, rfl, -⟩ := exists_eq_step hone
  exact ⟨hone, rfl, rfl, hfile⟩

/-- A project with two files, one of which has a backslash for the slash of the other. -/
def backslashTwins : Project where
  root := "/w"
  files := ["src/util.ts", "src\\util.ts"].map fun file => ⟨file, "typescript", [], [], [], 3⟩
  entryPoints := []
  dependencies := []

/-- The file with a tidy path keeps its draft, behind a welcome and before any other draft. -/
theorem review_listed_iff_tidy :
    let before : List Draft := [{ title := "Welcome" }]
    let d : Draft := { title := "Utilities", file := "src/util.ts" }
    backslashTwins.Lists d.file ∧ before.length < ({} : ReviewOptions).maxSteps ∧
      ∃ step, review backslashTwins {} (before ++ [d]) =
        review backslashTwins {} before ++ [step] ∧
        step.title = d.title ∧ step.description = d.description ∧ step.file = d.file := by
  intro before d
  have hlisted : backslashTwins.Lists d.file := Project.containsFile_iff.mp (by decide)
  have htidy : IsTidy d.file.toList := isTidy_iff.mpr (by decide +kernel)
  exact ⟨hlisted, by decide, (review_listed_iff backslashTwins {} before [] d hlisted
    (by decide)).2.mpr (.inr (.inl htidy))⟩

/-- The file with the backslash loses its draft to the other, and altogether where it is alone. -/
theorem review_loses_listed :
    let d : Draft := { title := "Utilities", file := "src\\util.ts" }
    let alone : Project := { backslashTwins with files := backslashTwins.files.drop 1 }
    0 < ({} : ReviewOptions).maxSteps ∧ backslashTwins.Lists d.file ∧ alone.Lists d.file ∧
      (review backslashTwins {} [d]).map Step.file = ["src/util.ts"] ∧
      review alone {} [d] = [] := by
  intro d alone
  exact ⟨by decide, Project.containsFile_iff.mp (by decide),
    Project.containsFile_iff.mp (by decide), by decide +kernel, by decide +kernel⟩

end GuidedTour
