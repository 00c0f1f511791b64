import GuidedTour.Tour.Answer

namespace GuidedTour.Answer

/-!
# Where the scan for an array stands

The scan for an array as a machine that goes on from character to character.

* `Scan`, `Scan.past?` — a scan under way, and where it stands behind a text, if it does not end in
  it;
* `Scan.next?_cases` — all that one character does to a scan that goes on;
* `Scan.closeArray_append` — the scan goes through these places;
* `Scan.exists_past?` — and ends where there is no next one.
-/

variable {a done s w : List Char} {c : Char}

/-- The mode behind one more character. -/
def Mode.next : Mode → Char → Mode
  | .escaped, _ => .quoted
  | .quoted, c => if c == '\\' then .escaped else if c == '"' then .plain else .quoted
  | .plain, c => if c == '"' then .quoted else .plain

/-- A scan under way: its mode, and how many arrays are open. -/
structure Scan where
  mode : Mode := .plain
  depth : Nat := 0
  deriving DecidableEq, Repr

variable {σ τ : Scan}

namespace Scan

/-- The scan behind one more character. It ends with the bracket that closes the last open array. -/
def next? (σ : Scan) (c : Char) : Option Scan :=
  match σ.mode with
  | .plain =>
    if c == '[' then some { σ with depth := σ.depth + 1 }
    else if c == ']' then if σ.depth ≤ 1 then none else some { σ with depth := σ.depth - 1 }
    else some { σ with mode := Mode.plain.next c }
  | mode => some { σ with mode := mode.next c }

/-- The scan behind a text, if it does not end in it. -/
def past? (σ : Scan) (w : List Char) : Option Scan := w.foldlM next? σ

@[simp] theorem past?_nil : σ.past? [] = some σ := rfl

@[simp] theorem past?_cons : σ.past? (c :: w) = (σ.next? c).bind (·.past? w) := by
  simp [past?]

theorem past?_cons_eq_some_iff :
    σ.past? (c :: w) = some τ ↔ ∃ ρ, σ.next? c = some ρ ∧ ρ.past? w = some τ := by
  rw [past?_cons, Option.bind_eq_some_iff]

/-- The scan goes past two parts one after the other. -/
theorem past?_append : σ.past? (w ++ s) = (σ.past? w).bind (·.past? s) := by
  simp [past?]

/-- The three things a character does to a scan that goes on: it opens an array, closes one of
several, or only changes the mode. -/
theorem next?_cases (h : σ.next? c = some τ) :
    (σ.mode = .plain ∧ c = '[' ∧ τ = { σ with depth := σ.depth + 1 }) ∨
      (σ.mode = .plain ∧ c = ']' ∧ 1 < σ.depth ∧ τ = { σ with depth := σ.depth - 1 }) ∨
      ((σ.mode = .plain → c ≠ '[' ∧ c ≠ ']') ∧ τ = { σ with mode := σ.mode.next c }) := by
  obtain ⟨mode, depth⟩ := σ
  -- Brackets count outside strings only.
  cases mode with
  | plain =>
    by_cases hopen : c = '['
    · exact .inl ⟨rfl, hopen, by simpa [next?, hopen] using h.symm⟩
    by_cases hclose : c = ']'
    · have hmore : ¬depth ≤ 1 := fun hlast => by simp [next?, hclose, hlast] at h
      exact .inr (.inl ⟨rfl, hclose, Nat.lt_of_not_le hmore,
        by simpa [next?, hclose, hmore] using h.symm⟩)
    · exact .inr (.inr ⟨fun _ => ⟨hopen, hclose⟩, by simpa [next?, hopen, hclose] using h.symm⟩)
  | quoted | escaped => exact .inr (.inr ⟨nofun, (Option.some.inj h).symm⟩)

/-- The scan stops at the closing bracket of the outermost array, and nowhere else. -/
theorem next?_eq_none_iff :
    σ.next? c = none ↔ σ.mode = .plain ∧ c = ']' ∧ σ.depth ≤ 1 := by
  obtain ⟨mode, depth⟩ := σ
  cases mode with
  | plain =>
    by_cases hopen : c = '['
    · simp [next?, hopen]
    · by_cases hclose : c = ']' <;> simp [next?, hopen, hclose]
  | quoted | escaped => simp [next?]

theorem mode_next? (h : σ.next? c = some τ) : τ.mode = σ.mode.next c := by
  obtain ⟨hmode, rfl, rfl⟩ | ⟨hmode, rfl, -, rfl⟩ | ⟨-, rfl⟩ := next?_cases h
  · simp [hmode, Mode.next]
  · simp [hmode, Mode.next]
  · rfl

/-- The array is closed at the character where the scan stops. -/
theorem closeArray_cons (σ : Scan) (done : List Char) (c : Char) (s : List Char) :
    closeArray σ.mode σ.depth done (c :: s) =
      (σ.next? c).elim (some (c :: done).reverse)
        fun τ => closeArray τ.mode τ.depth (c :: done) s := by
  obtain ⟨mode, depth⟩ := σ
  cases mode with
  | plain =>
    -- The scan tells a quote first and `next?` tells it last, but a quote is no bracket.
    simp only [closeArray, next?, Mode.next]
    by_cases hquote : c = '"'
    · simp [hquote]
    by_cases hopen : c = '['
    · simp [hopen]
    by_cases hclose : c = ']'
    · by_cases hlast : depth ≤ 1 <;> simp [hclose, hlast]
    · simp [hquote, hopen, hclose]
  | quoted | escaped => rfl

/-- The scan of a text goes on from where it stands behind the first part of it. -/
theorem closeArray_append (h : σ.past? w = some τ) (done s : List Char) :
    closeArray σ.mode σ.depth done (w ++ s) =
      closeArray τ.mode τ.depth (w.reverse ++ done) s := by
  induction w generalizing σ done with
  | nil =>
    obtain rfl : σ = τ := by simpa using h
    rfl
  | cons c w ih =>
    obtain ⟨ρ, hnext, hpast⟩ := past?_cons_eq_some_iff.mp h
    rw [List.cons_append, closeArray_cons, hnext, Option.elim_some, ih hpast]
    simp

/-- A scan that comes to an end has gone on up to the last character of what it finds. -/
theorem exists_past? (h : closeArray σ.mode σ.depth done s = some a) :
    ∃ p c t τ, s = p ++ c :: t ∧ σ.past? p = some τ ∧ τ.next? c = none ∧
      a = done.reverse ++ (p ++ [c]) := by
  induction s generalizing σ done with
  | nil => simp [closeArray] at h
  | cons c s ih =>
    -- Either the scan ends with this character, or it ends in the rest.
    rw [closeArray_cons] at h
    cases hnext : σ.next? c with
    | none =>
      rw [hnext] at h
      obtain rfl := Option.some.inj h
      exact ⟨[], c, s, σ, rfl, rfl, hnext, by simp⟩
    | some ρ =>
      rw [hnext] at h
      obtain ⟨p, d, t, τ, rfl, hpast, hend, rfl⟩ := ih h
      exact ⟨c :: p, d, t, τ, rfl, by simp [hnext, hpast], hend, by simp⟩

end Scan

end GuidedTour.Answer
