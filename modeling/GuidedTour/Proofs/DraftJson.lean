import GuidedTour.Proofs.Json.Writing
import GuidedTour.Tour.Answer

namespace GuidedTour

/-!
# Drafts as JSON and back

* `Draft.IsSized` — the numbers of a draft fit in 64 bits: its line with sign, those of its selection
  without;
* `Draft.ofDocument?_json` — such a draft is read back from its JSON as it was;
* `Draft.valueWithin_json` — its JSON is a value that needs three levels;
* `Draft.numbersFit_json` — and that can be written down.
-/

/-- Both numbers of a place fit in 64 bits. -/
structure Position.IsSized (p : Position) : Prop where
  line : p.line ≤ natMax64
  character : p.character ≤ natMax64

/-- All numbers of a selection fit in 64 bits. -/
structure Selection.IsSized (s : Selection) : Prop where
  start : s.start.IsSized
  stop : s.stop.IsSized

/-- All numbers of a draft fit in 64 bits. -/
structure Draft.IsSized (d : Draft) : Prop where
  line : ∀ z ∈ d.line, int64Min ≤ z ∧ z ≤ int64Max
  selection : ∀ s ∈ d.selection, s.IsSized

instance (p : Position) : Decidable p.IsSized :=
  decidable_of_iff (p.line ≤ natMax64 ∧ p.character ≤ natMax64)
    ⟨fun h => ⟨h.1, h.2⟩, fun h => ⟨h.line, h.character⟩⟩

instance (s : Selection) : Decidable s.IsSized :=
  decidable_of_iff (s.start.IsSized ∧ s.stop.IsSized)
    ⟨fun h => ⟨h.1, h.2⟩, fun h => ⟨h.start, h.stop⟩⟩

instance (d : Draft) : Decidable d.IsSized :=
  decidable_of_iff ((∀ z ∈ d.line, int64Min ≤ z ∧ z ≤ int64Max) ∧ ∀ s ∈ d.selection, s.IsSized)
    ⟨fun h => ⟨h.1, h.2⟩, fun h => ⟨h.line, h.selection⟩⟩

/-! ### Read back -/

/-- A position whose numbers fit is read back. -/
theorem Position.ofDocument?_json {p : Position} (h : p.IsSized) :
    Position.ofDocument? p.json.document = some p := by
  simp [Position.ofDocument?, Position.json, Json.nat, Json.document, Json.memberDocuments,
    Document.record?, Document.namedFields, Document.fieldNamed, Record.required, Record.get?,
    List.lookup_cons, Document.nat?, h.line, h.character]

/-- A selection whose numbers fit is read back. -/
theorem Selection.ofDocument?_json {s : Selection} (h : s.IsSized) :
    Selection.ofDocument? s.json.document = some s := by
  simp [Selection.ofDocument?, Selection.json, Json.document, Json.memberDocuments,
    Document.record?, Document.namedFields, Document.fieldNamed, Record.required, Record.get?,
    List.lookup_cons, Position.ofDocument?_json h.start, Position.ofDocument?_json h.stop]

theorem clampInt64_eq {z : Int} (h : int64Min ≤ z ∧ z ≤ int64Max) : clampInt64 z = z := by
  rw [clampInt64]
  omega

/-- The line of a draft is read back, or that there is none. -/
theorem lineOf?_json {line : Option Int}
    (h : ∀ z ∈ line, int64Min ≤ z ∧ z ≤ int64Max) :
    lineOf? (Json.orNull Json.int line).document = line := by
  cases line with
  | none => rfl
  | some z => simp [Json.orNull, Json.int, Json.document, lineOf?, clampInt64_eq (h z rfl)]

/-- The selection of a draft is read back, or that there is none. -/
theorem selection_ofDocument?_orNull {selection : Option Selection}
    (h : ∀ s ∈ selection, s.IsSized) :
    Selection.ofDocument? (Json.orNull Selection.json selection).document = selection := by
  cases selection with
  | none => rfl
  | some s => exact Selection.ofDocument?_json (h s rfl)

/-- A draft whose numbers fit is read back. -/
theorem Draft.ofDocument?_json {d : Draft} (h : d.IsSized) :
    Draft.ofDocument? d.json.document = some d := by
  simp [Draft.ofDocument?, Draft.json, Json.document, Json.memberDocuments, Document.record?,
    Document.namedFields, Draft.fields, Document.fieldNamed, Record.defaulted, Record.get?,
    List.lookup_cons, Document.text?, lineOf?_json h.line,
    selection_ofDocument?_orNull h.selection]

/-- A draft that is written is a draft of an answer. -/
theorem Answer.draft?_json {d : Draft} (h : d.IsSized) : Answer.draft? d.json = some d :=
  Draft.ofDocument?_json h

/-! ### A value that can be written -/

section Values

variable (depth : Nat)

/-- A position is one object deep. -/
theorem Position.valueWithin_json (p : Position) :
    p.json.document.valueWithin (depth + 1) = some p.json := by
  simp [Position.json, Json.nat, Json.document, Json.memberDocuments, Document.valueWithin,
    Document.membersWithin, Json.lastOfEachKey, Json.putMember]

/-- A selection is two objects deep. -/
theorem Selection.valueWithin_json (s : Selection) :
    s.json.document.valueWithin (depth + 2) = some s.json := by
  simp [Selection.json, Json.document, Json.memberDocuments, Document.valueWithin,
    Document.membersWithin, Json.lastOfEachKey, Json.putMember, Position.valueWithin_json]

/-- A draft is three objects deep. -/
theorem Draft.valueWithin_json (d : Draft) :
    d.json.document.valueWithin (depth + 3) = some d.json := by
  have hline : (Json.orNull Json.int d.line).document.valueWithin (depth + 2) =
      some (Json.orNull Json.int d.line) := by
    cases d.line <;> simp [Json.orNull, Json.int, Json.document, Document.valueWithin]
  have hselection : (Json.orNull Selection.json d.selection).document.valueWithin (depth + 2) =
      some (Json.orNull Selection.json d.selection) := by
    cases d.selection with
    | none => simp [Json.orNull, Json.document, Document.valueWithin]
    | some s => exact Selection.valueWithin_json depth s
  simp [Draft.json, Json.document, Json.memberDocuments, Document.valueWithin,
    Document.membersWithin, Json.lastOfEachKey, Json.putMember, hline, hselection]

end Values

/-- A number that fits in 64 bits fits when it is written. -/
theorem Json.numbersFit_nat {n : Nat} (h : n ≤ natMax64) : (Json.nat n).NumbersFit := by
  have hmin : int64Min ≤ 0 := by decide
  exact ⟨Int.le_trans hmin (Int.natCast_nonneg n), Int.ofNat_le.mpr h⟩

/-- The numbers of a written position fit if those of the position do. -/
theorem Position.numbersFit_json {p : Position} (h : p.IsSized) : p.json.NumbersFit :=
  ⟨Json.numbersFit_nat h.line, Json.numbersFit_nat h.character, trivial⟩

/-- The numbers of a written selection fit if those of the selection do. -/
theorem Selection.numbersFit_json {s : Selection} (h : s.IsSized) : s.json.NumbersFit :=
  ⟨Position.numbersFit_json h.start, Position.numbersFit_json h.stop, trivial⟩

/-- The numbers of a written draft fit if those of the draft do. -/
theorem Draft.numbersFit_json {d : Draft} (h : d.IsSized) : d.json.NumbersFit := by
  have hline : (Json.orNull Json.int d.line).NumbersFit := by
    cases hd : d.line with
    | none => trivial
    | some z =>
      have hmax : int64Max ≤ wordMax := by decide
      exact ⟨(h.line z hd).1, Int.le_trans (h.line z hd).2 hmax⟩
  have hselection : (Json.orNull Selection.json d.selection).NumbersFit := by
    cases hd : d.selection with
    | none => trivial
    | some s => exact Selection.numbersFit_json (h.selection s hd)
  exact ⟨trivial, trivial, hline, trivial, hselection, trivial⟩

end GuidedTour
