import GuidedTour.Proofs.Json.Number
import GuidedTour.Proofs.Json.Quoted
import Mathlib.Data.List.Forall2

namespace GuidedTour

/-!
# Writing JSON texts

What is written on one line is a text of the grammar.

* `SpellsItems.of_commas`, `SpellsMembers.of_commas` — pieces with a comma between each two;
* `Spells.brackets`, `Spells.braces` — the same in brackets, which may be empty;
* `Json.NumbersFit` — every number in a value is an integer of 64 bits, with sign or without;
* `Json.spells_compact` — such a value is written as a text that spells it.
-/

/-! ### Pieces between commas -/

theorem isGap_nil : IsGap [] := fun c hc => by cases hc

/-- A value needs no gaps around it. -/
theorem SpellsText.of_spells {s : List Char} {d : Document} (h : Spells s d) : SpellsText s d := by
  simpa using SpellsText.padded isGap_nil h isGap_nil

/-- Items with commas between them are the items of an array. -/
theorem SpellsItems.of_commas {texts : List (List Char)} {items : List Document}
    (h : List.Forall₂ SpellsText texts items) (hne : texts ≠ []) :
    SpellsItems (Json.commas texts) items := by
  induction h with
  | nil => exact absurd rfl hne
  | @cons text item texts items hitem hitems ih =>
    cases hitems with
    | nil => exact .last hitem
    | cons => exact .more hitem (ih (List.cons_ne_nil _ _))

/-- Members with commas between them are the members of an object. -/
theorem SpellsMembers.of_commas {texts : List (List Char)}
    {members : List (Option String × Document)}
    (h : List.Forall₂ SpellsMember texts members) (hne : texts ≠ []) :
    SpellsMembers (Json.commas texts) members := by
  induction h with
  | nil => exact absurd rfl hne
  | @cons text m texts members hmember hmembers ih =>
    cases hmembers with
    | nil => exact .last hmember
    | cons => exact .more hmember (ih (List.cons_ne_nil _ _))

/-- Items in brackets are an array, also where there are none. -/
theorem Spells.brackets {texts : List (List Char)} {items : List Document}
    (h : List.Forall₂ SpellsText texts items) :
    Spells ('[' :: Json.commas texts ++ [']']) (.array items) := by
  cases h with
  | nil => exact .noItems isGap_nil
  | cons hitem hitems => exact .array (.of_commas (.cons hitem hitems) (List.cons_ne_nil _ _))

/-- Members in braces are an object, also where there are none. -/
theorem Spells.braces {texts : List (List Char)} {members : List (Option String × Document)}
    (h : List.Forall₂ SpellsMember texts members) :
    Spells ('\x7b' :: Json.commas texts ++ ['\x7d']) (.object members) := by
  cases h with
  | nil => exact .noMembers isGap_nil
  | cons hmember hmembers =>
    exact .object (.of_commas (.cons hmember hmembers) (List.cons_ne_nil _ _))

/-! ### Values -/

namespace Json

mutual

/-- Every number in the value is an integer that fits in 64 bits, with sign or without. -/
def NumbersFit : Json → Prop
  | .number (.int z) => int64Min ≤ z ∧ z ≤ wordMax
  | .number (.real _) => False
  | .array items => ItemsFit items
  | .object members => MembersFit members
  | .null | .bool _ | .string _ => True

@[inherit_doc NumbersFit]
def ItemsFit : List Json → Prop
  | [] => True
  | item :: rest => item.NumbersFit ∧ ItemsFit rest

@[inherit_doc NumbersFit]
def MembersFit : List (String × Json) → Prop
  | [] => True
  | (_, value) :: rest => value.NumbersFit ∧ MembersFit rest

end

mutual

/-- A value is written as its document. -/
theorem spells_compact : ∀ {value : Json}, value.NumbersFit → Spells value.compact value.document
  | .null, _ => .null
  | .bool true, _ => .true
  | .bool false, _ => .false
  | .number (.int z), h => by
    have hnumber := Spells.number (spellsNumber_ofInt z)
    rwa [NumberText.value_ofInt h.1 h.2] at hnumber
  | .string s, _ => .string (spellsString_quoted s)
  | .array _, h => .brackets (spellsText_compactItems h)
  | .object _, h => .braces (spellsMember_compactMembers h)

theorem spellsText_compactItems : ∀ {items : List Json}, ItemsFit items →
    List.Forall₂ SpellsText (compactItems items) (documents items)
  | [], _ => .nil
  | _ :: _, h => .cons (.of_spells (spells_compact h.1)) (spellsText_compactItems h.2)

theorem spellsMember_compactMembers : ∀ {members : List (String × Json)}, MembersFit members →
    List.Forall₂ SpellsMember (compactMembers members) (memberDocuments members)
  | [], _ => .nil
  | (key, _) :: _, h => by
    have hmember := SpellsMember.pair isGap_nil (spellsString_quoted key) isGap_nil
      (.of_spells (spells_compact h.1))
    exact .cons hmember (spellsMember_compactMembers h.2)

end

end Json

end GuidedTour
