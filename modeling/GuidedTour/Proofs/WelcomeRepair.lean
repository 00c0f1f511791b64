import GuidedTour.Proofs.ReviewEach
import GuidedTour.Proofs.Trim
import GuidedTour.Proofs.Welcome

namespace GuidedTour

/-!
# A welcome keeps what is good in it

Whatever becomes of the request, there is a welcome, and it is fit to open a tour. What the service
wrote is kept wherever it is fit.

* `Text.IsTrimOf` — a text without the blanks around it;
* `Draft.IsRepaired` — the welcome that a draft becomes, field by field;
* `Ending.textWithin`, `Welcome.offered?` — the draft that comes back in time, if one does;
* `Welcome.mend_isRepaired`, `Welcome.synthesize_eq` — what is mended is repaired, and the welcome
  is the offered draft mended;
* `Welcome.synthesize_repairs` — without an offer the welcome is the fallback, else it is the
  offered draft repaired.
-/

/-- A text without the blanks around another one. -/
structure Text.IsTrimOf (inner s : List Char) : Prop where
  trimmed : IsTrimmed inner
  around : ∃ before after, s = before ++ inner ++ after ∧ (∀ c ∈ before, isBlank c = true) ∧
    ∀ c ∈ after, isBlank c = true

/-- The welcome that a draft becomes, where `file` and `title` are those of the draft without the
blanks around them. -/
structure Draft.IsRepaired (p : Project) (c : Context) (d : Draft) (file title : String)
    (welcome : Draft) : Prop where
  file_trim : Text.IsTrimOf file.toList d.file.toList
  title_trim : Text.IsTrimOf title.toList d.title.toList
  /-- The file is replaced if it is blank or the generic one. -/
  file_replaced : file = "" ∨ file = "README.md" → welcome.file = Welcome.file p c
  file_kept : file ≠ "" → file ≠ "README.md" → welcome.file = d.file
  /-- The title is replaced if it is blank, and gets the marker in front if it has none. -/
  title_replaced : title = "" → welcome.title = "Welcome to " ++ c.name
  title_kept : title ≠ "" → "Welcome".toList <:+: title.toList → welcome.title = title
  title_marked : title ≠ "" → ¬ "Welcome".toList <:+: title.toList →
    welcome.title = "Welcome: " ++ title
  /-- The description is replaced if it is blank. -/
  description_replaced : (∀ ch ∈ d.description.toList, Text.isBlank ch = true) →
    welcome.description = Welcome.description p c
  description_kept : ∀ ch ∈ d.description.toList, Text.isBlank ch = false →
    welcome.description = d.description
  /-- The line is replaced if there is none or it is before the first. -/
  line_replaced : (∀ line ∈ d.line, line < 1) → welcome.line = some 1
  line_kept : ∀ line ∈ d.line, 1 ≤ line → welcome.line = d.line
  selection_kept : welcome.selection = d.selection

/-- The text of an answer that is there by the deadline. -/
def Ending.textWithin (deadline : Nat) : Ending → Option String
  | .answers delay (.ok response) => if delay ≤ deadline then some response.text else none
  | _ => none

/-- Trimming takes the blanks off both ends. -/
theorem Text.isTrimOf_trim (s : List Char) : IsTrimOf (trim s) s := by
  obtain ⟨before, after, hparts, hbefore, hafter⟩ := exists_trim s
  exact ⟨isTrimmed_trim s, before, after, hparts, hbefore, hafter⟩

namespace Welcome

variable {p : Project} {c : Context}

/-- The draft that the service offers in time: the first one in its answer. There is none without a
service, and none if it fails, is late, or answers without a draft. -/
def offered? (around : Option Surroundings) (p : Project) (c : Context) (model : Option String)
    (deadline : Nat) (j : Journal) : Option Draft := do
  let around ← around
  let behaviour := around.service j.exchanges.length (request p c model)
  let text ← behaviour.ending.textWithin deadline
  (Answer.drafts text.toList).head?

/-! ### A draft repaired -/

theorem mend_file (p : Project) (c : Context) (d : Draft) :
    (mend p c d).file = mendFile p c d.file := by
  rw [mend]

/-- The description of a mended draft: its own, unless that is blank. -/
theorem mend_description (p : Project) (c : Context) (d : Draft) :
    (mend p c d).description =
      if d.description.isAllBlank then description p c else d.description := by
  rw [mend]

theorem mend_line (p : Project) (c : Context) (d : Draft) :
    (mend p c d).line = some (mendLine d.line) := by
  rw [mend]

theorem mend_selection (p : Project) (c : Context) (d : Draft) :
    (mend p c d).selection = d.selection := by
  rw [mend]

theorem isTrimOf_trimBlanks (s : String) : Text.IsTrimOf s.trimBlanks.toList s.toList := by
  rw [String.trimBlanks, String.mapText, String.toList_ofList]
  exact Text.isTrimOf_trim s.toList

/-- What is mended is repaired, and nothing else is touched. -/
theorem mend_isRepaired (p : Project) (c : Context) (d : Draft) :
    d.IsRepaired p c d.file.trimBlanks d.title.trimBlanks (mend p c d) where
  file_trim := isTrimOf_trimBlanks d.file
  title_trim := isTrimOf_trimBlanks d.title
  file_replaced := by
    intro hfile
    rw [mend_file, mendFile]
    exact if_pos (by simpa [genericFile] using hfile)
  file_kept := by
    intro hblank hgeneric
    rw [mend_file, mendFile]
    exact if_neg (by simp [genericFile, hblank, hgeneric])
  title_replaced := by
    intro hblank
    rw [mend_title, mendTitle, hblank]
    rfl
  title_kept := by
    intro hblank hmarker
    have hmarked : d.title.trimBlanks.hasText welcomeMarker = true :=
      Text.contains_iff_infix.mpr hmarker
    have hnamed : ¬ d.title.trimBlanks.isEmpty = true := by simpa using hblank
    rw [mend_title]
    unfold mendTitle
    rw [if_neg hnamed, if_pos hmarked]
  title_marked := by
    intro hblank hmarker
    have hunmarked : ¬ d.title.trimBlanks.hasText welcomeMarker = true :=
      mt Text.contains_iff_infix.mp hmarker
    have hnamed : ¬ d.title.trimBlanks.isEmpty = true := by simpa using hblank
    rw [mend_title]
    unfold mendTitle
    rw [if_neg hnamed, if_neg hunmarked]
    rfl
  description_replaced := by
    intro hblank
    have hall : d.description.isAllBlank = true := List.all_eq_true.mpr hblank
    rw [mend_description, if_pos hall]
  description_kept := by
    intro ch hch hblank
    have hsome : ¬ d.description.isAllBlank = true := by
      intro hall
      have htrue := List.all_eq_true.mp hall ch hch
      rw [hblank] at htrue
      cases htrue
    rw [mend_description, if_neg hsome]
  line_replaced := by
    intro hline
    rw [mend_line]
    -- Without a line, or with one before the first, the first one is taken.
    cases h : d.line with
    | none => rfl
    | some line =>
      have hlow := hline line h
      rw [mendLine, if_neg (by omega)]
  line_kept := by
    intro line hline hpos
    rw [mend_line, Option.mem_def.mp hline, mendLine, if_pos hpos]
  selection_kept := mend_selection p c d

/-! ### The welcome of a run -/

/-- A request that does not crash in time leads to the fallback, or to the first draft of its answer
mended. -/
theorem ofOutcome_within {deadline : Nat} {ending : Ending}
    (h : ∀ delay, ending = .crashesAfter delay → deadline < delay) :
    ofOutcome p c (ending.within deadline).2 =
      some ((((ending.textWithin deadline).bind fun text => (Answer.drafts text.toList).head?).map
        (mend p c)).getD (fallback p c)) := by
  -- A crash that comes too late is a missed deadline like any other.
  cases ending with
  | crashesAfter delay =>
    have hlate := h delay rfl
    rw [Ending.within, if_neg (by omega)]
    rfl
  | never => rfl
  | answers delay result =>
    rw [Ending.within]
    by_cases hintime : delay ≤ deadline
    · rw [if_pos hintime]
      cases result with
      | error failure => rfl
      | ok response =>
        rw [Ending.textWithin, if_pos hintime]
        show ofOutcome p c (.answered response.text) = _
        rw [ofOutcome, Option.bind_some]
        cases (Answer.drafts response.text.toList).head? with
        | none => rfl
        | some d => rfl
    · rw [if_neg hintime]
      cases result with
      | error failure => rfl
      | ok response =>
        rw [Ending.textWithin, if_neg hintime]
        rfl

/-- Unless the service crashes in time, the welcome is the draft that is offered, mended, or the
fallback. -/
theorem synthesize_eq {around : Option Surroundings} {model : Option String} {deadline : Nat}
    {j : Journal} (hservice : ∀ a ∈ around, ∀ delay,
      (a.service j.exchanges.length (request p c model)).ending = .crashesAfter delay →
        deadline < delay) :
    (synthesize around p c model deadline j).2 =
      some (((offered? around p c model deadline j).map (mend p c)).getD (fallback p c)) := by
  cases around with
  | none => rfl
  | some a =>
    -- One request is made, and the welcome hangs on how it ends.
    show ofOutcome p c
      ((a.service j.exchanges.length (request p c model)).ending.within deadline).2 = _
    exact ofOutcome_within (hservice a rfl)

/-- **A welcome keeps what is good in it.** There is a welcome and it is fit to open a tour, unless
the service crashes by the deadline. It is the fallback if no draft is offered: without a service,
and with one that fails, is late or answers without a draft. Else it is the draft that is offered,
repaired. -/
theorem synthesize_repairs (around : Option Surroundings) (p : Project) (c : Context)
    (model : Option String) (deadline : Nat) (j : Journal)
    (hservice : ∀ a ∈ around, ∀ delay,
      (a.service j.exchanges.length (request p c model)).ending = .crashesAfter delay →
        deadline < delay) :
    ∃ welcome, (synthesize around p c model deadline j).2 = some welcome ∧ welcome.IsFitWelcome ∧
      (offered? around p c model deadline j = none → welcome = fallback p c) ∧
      ∀ d, offered? around p c model deadline j = some d →
        ∃ file title, d.IsRepaired p c file title welcome := by
  refine ⟨_, synthesize_eq hservice, ?_, fun hnone => ?_, fun d hd => ?_⟩
  · cases offered? around p c model deadline j with
    | none => exact fallback_isFitWelcome p c
    | some d => exact mend_isFitWelcome p c d
  · rw [hnone]
    rfl
  · rw [hd]
    exact ⟨_, _, mend_isRepaired p c d⟩

/-- An answer that is there at the deadline, with a title without the marker and a line before the
first. -/
theorem synthesize_repairs_atDeadline :
    let c : Context := ⟨"demo", some ⟨"docs/README.md", "Greets people."⟩, none⟩
    let answer := "Here: [\x7b\"title\":\" Start \",\"file\":\" README.md\",\"line\":0," ++
      "\"description\":\"Hi\"\x7d]"
    let around : Surroundings :=
      ⟨fun _ _ => ⟨false, .answers 60 (.ok ⟨answer, none⟩)⟩, fun _ => false⟩
    let d : Draft :=
      { title := " Start ", file := " README.md", line := some 0, description := "Hi" }
    (∀ a ∈ some around, ∀ delay,
      (a.service 0 (request lookAlikes c none)).ending = .crashesAfter delay → 60 < delay) ∧
      offered? (some around) lookAlikes c none 60 (.empty false) = some d ∧
      ∃ welcome file title, d.IsRepaired lookAlikes c file title welcome ∧ welcome.IsFitWelcome ∧
        (synthesize (some around) lookAlikes c none 60 (.empty false)).2 = some welcome ∧
        welcome = { title := "Welcome: Start", file := "docs/README.md", line := some 1
                    description := "Hi" } := by
  intro c answer around d
  have hservice : ∀ a ∈ some around, ∀ delay,
      (a.service 0 (request lookAlikes c none)).ending = .crashesAfter delay → 60 < delay := by
    intro a ha delay hcrash
    obtain rfl := Option.some.inj ha
    cases hcrash
  have hoffered : offered? (some around) lookAlikes c none 60 (.empty false) = some d := by
    decide +kernel
  obtain ⟨welcome, hwelcome, hfit, -, hrepaired⟩ :=
    synthesize_repairs (some around) lookAlikes c none 60 (.empty false) hservice
  obtain ⟨file, title, hd⟩ := hrepaired d hoffered
  refine ⟨hservice, hoffered, welcome, file, title, hd, hfit, hwelcome, ?_⟩
  -- The welcome is computed as well, to show which fields were repaired.
  have hvalue : (synthesize (some around) lookAlikes c none 60 (.empty false)).2 =
      some { title := "Welcome: Start", file := "docs/README.md", line := some 1
             description := "Hi" } := by
    decide +kernel
  exact Option.some.inj (hwelcome.symm.trans hvalue)

end Welcome

end GuidedTour
