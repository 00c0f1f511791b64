import GuidedTour.Proofs.ReviewEach
import Mathlib.Data.Prod.Lex

namespace GuidedTour

/-!
# Where selections end

A review puts the lines of a selection in order and leaves its columns as they are. Where both places
of the selection come to stand in one line, it may so end before it begins.

* `Position.le_iff` — places in the order of a text, by line and then by column;
* `Selection.IsForward` — a selection that does not end before it begins;
* `Selection.RepairsTo` — what becomes of a selection whose lines are held at a greatest one;
* `selection_isForward_iff` — of every selection, repaired alone or in a review, the lines are in
  order, and it is known from the given one whether it is forward.
-/

variable {p : Project} {options : ReviewOptions}

/-! ### Places in order -/

/-- The line of a place, which is compared first, and its column. -/
def Position.key (p : Position) : ℕ ×ₗ ℕ := toLex (p.line, p.character)

/-- A position is told by its line and its character. -/
theorem Position.key_injective : Function.Injective Position.key := by
  rintro ⟨line, character⟩ ⟨line', character'⟩ h
  obtain ⟨rfl, rfl⟩ := Prod.mk.inj (toLex_inj.mp h)
  rfl

instance : LinearOrder Position := LinearOrder.lift' Position.key Position.key_injective

/-- Positions are in order by their lines, and then by their characters. -/
theorem Position.le_iff {p q : Position} :
    p ≤ q ↔ p.line < q.line ∨ p.line = q.line ∧ p.character ≤ q.character :=
  Prod.Lex.toLex_le_toLex

namespace Selection

variable {s t : Selection} {most : Option Nat}

/-- A selection whose end is not before its start. -/
def IsForward (s : Selection) : Prop := s.start ≤ s.stop

instance (s : Selection) : Decidable s.IsForward := inferInstanceAs (Decidable (s.start ≤ s.stop))

/-- With lines in order, only within one line do columns count. -/
theorem isForward_iff (hlines : s.start.line ≤ s.stop.line) :
    s.IsForward ↔ s.start.line < s.stop.line ∨ s.start.character ≤ s.stop.character := by
  rw [IsForward, Position.le_iff]
  omega

/-- What the selection `s` becomes with its lines raised to 1, put in order and then held at a
greatest line, if there is one. -/
structure RepairsTo (s : Selection) (most : Option Nat) (t : Selection) : Prop where
  start : t.start.line = heldBy most (max s.start.line 1)
  stop : t.stop.line = max t.start.line (heldBy most s.stop.line)
  lines : 1 ≤ t.start.line ∧ t.start.line ≤ t.stop.line
  columns : t.start.character = s.start.character ∧ t.stop.character = s.stop.character
  /-- The end is not before the start exactly if the line it is held at is beyond the first one, or
  the columns are in order. -/
  forward : t.IsForward ↔
    max s.start.line 1 < heldBy most s.stop.line ∨ s.start.character ≤ s.stop.character

end Selection

/-! ### Held lines -/

/-- A held line is the first one at least. -/
theorem one_le_heldBy {most : Option Nat} {line : Nat} (hmost : ∀ n, most = some n → 1 ≤ n)
    (h : 1 ≤ line) : 1 ≤ heldBy most line := by
  cases most with
  | none => exact h
  | some n => exact Nat.le_min.mpr ⟨h, hmost n rfl⟩

/-- The later of two lines stays the later one when both are held. -/
theorem heldBy_max {most : Option Nat} {first last : Nat} :
    heldBy most (max last first) = max (heldBy most first) (heldBy most last) := by
  cases most with
  | none => simp only [heldBy]; omega
  | some n => simp only [heldBy]; omega

/-- Two lines that are put in order and held stay apart exactly if the last one, held, is beyond the
first. -/
theorem heldBy_lt_heldBy_max {most : Option Nat} {first last : Nat} :
    heldBy most first < heldBy most (max last first) ↔ first < heldBy most last := by
  cases most with
  | none => simp only [heldBy]; omega
  | some n => simp only [heldBy]; omega

/-- A selection is repaired by putting its lines in order and holding them. -/
theorem Selection.repairsTo_mapLines (s : Selection) {most : Option Nat}
    (hmost : ∀ n, most = some n → 1 ≤ n) :
    s.RepairsTo most (s.normalized.mapLines (heldBy most)) := by
  have hfirst : 1 ≤ heldBy most (max s.start.line 1) :=
    one_le_heldBy hmost (Nat.le_max_right _ _)
  have hstop : heldBy most (max s.stop.line (max s.start.line 1)) =
      max (heldBy most (max s.start.line 1)) (heldBy most s.stop.line) := heldBy_max
  have hlines : heldBy most (max s.start.line 1) ≤
      heldBy most (max s.stop.line (max s.start.line 1)) := by
    rw [hstop]
    exact Nat.le_max_left _ _
  refine ⟨rfl, hstop, ⟨hfirst, hlines⟩, ⟨rfl, rfl⟩, ?_⟩
  -- The lines differ if the last one is still beyond the first when it is held.
  rw [Selection.isForward_iff hlines]
  exact or_congr_left heldBy_lt_heldBy_max

/-! ### In a review -/

/-- The greatest line of the step that the draft at an index becomes in a file: an opening step has
none. -/
def greatestLine? (p : Project) (options : ReviewOptions) (index : Nat) (d : Draft)
    (file : String) : Option Nat :=
  if index == 0 && d.isWelcome then none else maxLine? p options file

/-- The greatest line is not below the first one. -/
theorem one_le_greatestLine {index : Nat} {d : Draft} {file : String} {most : Nat}
    (h : greatestLine? p options index d file = some most) : 1 ≤ most := by
  unfold greatestLine? at h
  split at h
  · cases h
  · exact one_le_maxLine h

/-- A step that is kept is that of its draft, held by the greatest line of its file. -/
theorem eq_step_greatestLine {index : Nat} {d : Draft} {step : Step}
    (h : reviewOne p options index d = some step) :
    step = d.step step.file (greatestLine? p options index d step.file) := by
  unfold reviewOne at h
  unfold greatestLine?
  split at h
  · rename_i hopens
    obtain rfl := Option.some.inj h
    rw [if_pos hopens]
    rfl
  · rename_i hopens
    obtain ⟨file, -, rfl⟩ := Option.map_eq_some_iff.mp h
    rw [if_neg hopens]
    rfl

/-- A step of a review is what the draft at some index becomes. -/
theorem exists_of_mem_review {drafts : List Draft} {step : Step}
    (h : step ∈ review p options drafts) :
    ∃ index d, (drafts.take options.maxSteps)[index]? = some d ∧
      reviewOne p options index d = some step := by
  rw [review, reviewFrom_eq_mapIdx, List.reduceOption_mem_iff, List.mem_mapIdx] at h
  obtain ⟨index, hindex, hone⟩ := h
  rw [Nat.zero_add] at hone
  exact ⟨index, _, List.getElem?_eq_getElem hindex, hone⟩

/-- **Lines are put in order, columns are not.** A selection that is repaired, alone or in a review
with or without strict bounds, has its lines from 1 on and in order. It does not end before it
begins exactly if the given columns are in order, or the line that the given end is held at is beyond
the first line. -/
theorem selection_isForward_iff (p : Project) (options : ReviewOptions) (drafts : List Draft) :
    (∀ s : Selection, s.RepairsTo none s.normalized) ∧
      ∀ step ∈ review p options drafts, ∀ t ∈ step.selection,
        ∃ index d, (drafts.take options.maxSteps)[index]? = some d ∧
          reviewOne p options index d = some step ∧
          ∃ s ∈ d.selection, s.RepairsTo (greatestLine? p options index d step.file) t := by
  have hnone : ∀ n, (none : Option Nat) = some n → 1 ≤ n := by simp
  refine ⟨fun s => s.repairsTo_mapLines hnone, fun step hstep t ht => ?_⟩
  obtain ⟨index, d, hd, hone⟩ := exists_of_mem_review hstep
  have hselection : step.selection = d.selection.map fun s =>
      s.normalized.mapLines (heldBy (greatestLine? p options index d step.file)) := by
    rw [← Draft.selection_step d step.file, ← eq_step_greatestLine hone]
  rw [hselection, Option.mem_def, Option.map_eq_some_iff] at ht
  obtain ⟨s, hs, rfl⟩ := ht
  exact ⟨index, d, hd, hone, s, hs, s.repairsTo_mapLines fun n => one_le_greatestLine⟩

/-- A selection that ends in an earlier line, one that begins in line 0, and one that strict bounds
hold at the last line of its file: they all come to end before they begin, in their first line. -/
theorem selection_endsBeforeStart :
    let swapped : Selection := ⟨⟨5, 10⟩, ⟨3, 2⟩⟩
    let fromZero : Selection := ⟨⟨0, 10⟩, ⟨1, 2⟩⟩
    let beyond : Selection := ⟨⟨17, 10⟩, ⟨19, 2⟩⟩
    let draft : Draft := { file := "src/b/util.ts", selection := some beyond }
    swapped.normalized.stop < swapped.normalized.start ∧
      fromZero.IsForward ∧ fromZero.normalized.stop < fromZero.normalized.start ∧
      beyond.IsForward ∧
      ∃ step ∈ review lookAlikes { strictLineBounds := true } [draft],
        ∃ t ∈ step.selection, t.stop < t.start := by
  decide +kernel

end GuidedTour
