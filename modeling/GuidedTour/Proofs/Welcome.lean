import GuidedTour.Run.Welcome

namespace GuidedTour

/-!
# Every welcome is fit to open a tour

Whatever the service answers, and also where it fails, the welcome of a run welcomes the reader,
points at a line and says something.

* `Text.contains_iff_infix` — what it means that a text holds another;
* `Draft.IsFitWelcome` — a draft that is fit to open a tour;
* `Welcome.isFitWelcome_of_ofOutcome` — every welcome is;
* `Welcome.exists_ofOutcome` — there is one unless the request crashed.
-/

/-- A text contains another one if it has it as a part. -/
theorem Text.contains_iff_infix {needle s : List Char} :
    Text.contains needle s = true ↔ needle <:+: s := by
  induction s with
  | nil => simp [Text.contains]
  | cons c s ih => simp [Text.contains, ih, List.infix_cons_iff]

/-- A draft that welcomes the reader, points at a line and says something. -/
structure Draft.IsFitWelcome (d : Draft) : Prop where
  title : d.title.hasText welcomeMarker = true
  line : ∃ line, d.line = some line ∧ 1 ≤ line
  description : d.description.isAllBlank = false

namespace Welcome

variable {p : Project} {c : Context}

/-- What begins with the marker has it. -/
theorem hasText_marker_append (s : String) :
    (welcomeMarker ++ s).hasText welcomeMarker = true := by
  rw [String.hasText, Text.contains_iff_infix, String.toList_append]
  exact (List.prefix_append _ _).isInfix

theorem title_hasText (c : Context) : (title c).hasText welcomeMarker = true := by
  rw [title, String.append_assoc]
  exact hasText_marker_append _

/-- A mended title has the marker. -/
theorem mendTitle_hasText (c : Context) (given : String) :
    (mendTitle c given).hasText welcomeMarker = true := by
  simp only [mendTitle]
  split
  · exact title_hasText c
  · split
    · assumption
    · rw [String.append_assoc]
      exact hasText_marker_append _

/-- The text of a welcome begins with a heading. -/
theorem description_isAllBlank (p : Project) (c : Context) :
    (description p c).isAllBlank = false := by
  have hheading : Text.isBlank '#' = false := by decide
  simp only [description]
  rw [List.append_assoc, List.singleton_append, String.intercalate_cons_of_ne_nil (by simp)]
  simp [String.isAllBlank, Text.allBlank, hheading]

/-- A mended line is the first one at least. -/
theorem one_le_mendLine (line : Option Int) : 1 ≤ mendLine line := by
  unfold mendLine
  split
  · split <;> omega
  · exact Int.le_refl 1

@[simp] theorem mend_title (p : Project) (c : Context) (d : Draft) :
    (mend p c d).title = mendTitle c d.title := by
  rw [mend]

/-- The fallback is fit to be a welcome. -/
theorem fallback_isFitWelcome (p : Project) (c : Context) : (fallback p c).IsFitWelcome where
  title := title_hasText c
  line := ⟨1, rfl, Int.le_refl 1⟩
  description := description_isAllBlank p c

/-- A mended draft is fit to be a welcome. -/
theorem mend_isFitWelcome (p : Project) (c : Context) (d : Draft) : (mend p c d).IsFitWelcome where
  title := by rw [mend_title, mendTitle_hasText]
  line := ⟨_, rfl, one_le_mendLine d.line⟩
  description := by
    cases h : d.description.isAllBlank with
    | true => simpa [mend, h] using description_isAllBlank p c
    | false => simp [mend, h]

/-- Every welcome is fit to open a tour. -/
theorem isFitWelcome_of_ofOutcome {outcome : Outcome} {welcome : Draft}
    (h : ofOutcome p c outcome = some welcome) : welcome.IsFitWelcome := by
  cases outcome with
  | crashed => cases h
  | failed failure =>
    obtain rfl := Option.some.inj h
    exact fallback_isFitWelcome p c
  | answered text =>
    simp only [ofOutcome] at h
    split at h <;> obtain rfl := Option.some.inj h
    · exact mend_isFitWelcome p c _
    · exact fallback_isFitWelcome p c

/-- There is a welcome unless the request crashed. -/
theorem exists_ofOutcome (p : Project) (c : Context) {outcome : Outcome}
    (h : outcome ≠ .crashed) : ∃ welcome, ofOutcome p c outcome = some welcome := by
  cases outcome with
  | crashed => exact absurd rfl h
  | failed failure => exact ⟨_, rfl⟩
  | answered text =>
    simp only [ofOutcome]
    split
    · exact ⟨_, rfl⟩
    · exact ⟨_, rfl⟩

end Welcome

end GuidedTour
