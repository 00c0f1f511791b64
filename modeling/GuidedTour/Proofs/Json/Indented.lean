import GuidedTour.Proofs.Json.Accepted
import GuidedTour.Proofs.Json.Writing

namespace GuidedTour

/-!
# Writing JSON texts over several lines

Line ends and indentation are gaps, and the grammar has room for gaps wherever they are written.

* `SpellsText.gap_append`, `SpellsItems.append_gap` and the like — a gap more before or after a text
  of the grammar;
* `Spells.itemBlock`, `Spells.memberBlock` — pieces between brackets, each on its own line;
* `Json.spells_prettyAt` — a value is written as a text that spells it, at every level;
* `Json.parse_pretty` — and so the reader gets the value's document back.
-/

variable {gap w : List Char} {d : Document}

/-! ### One gap more -/

/-- Two gaps are a gap. -/
theorem IsGap.append {v : List Char} (hgap : IsGap gap) (hv : IsGap v) : IsGap (gap ++ v) := by
  intro c hc
  rcases List.mem_append.mp hc with hc | hc
  · exact hgap c hc
  · exact hv c hc

/-- A new line with its indentation is a gap. -/
theorem isGap_newline (level : Nat) : IsGap (Json.newline level) := by
  intro c hc
  rcases List.mem_cons.mp hc with rfl | hc
  · rfl
  · rw [List.eq_of_mem_replicate hc]
    rfl

/-- A value may have one more gap before it. -/
theorem SpellsText.gap_append (hgap : IsGap gap) (h : SpellsText w d) :
    SpellsText (gap ++ w) d := by
  obtain ⟨hbefore, hvalue, hafter⟩ := h
  rw [← List.append_assoc]
  exact .padded (hgap.append hbefore) hvalue hafter

theorem SpellsText.append_gap (h : SpellsText w d) (hgap : IsGap gap) :
    SpellsText (w ++ gap) d := by
  obtain ⟨hbefore, hvalue, hafter⟩ := h
  rw [List.append_assoc, List.append_assoc]
  exact .padded hbefore hvalue (hafter.append hgap)

/-- A member may have one more gap before it. -/
theorem SpellsMember.gap_append {m : Option String × Document} (hgap : IsGap gap)
    (h : SpellsMember w m) : SpellsMember (gap ++ w) m := by
  obtain ⟨hbefore, hkey, hafter, hvalue⟩ := h
  rw [← List.append_assoc]
  exact .pair (hgap.append hbefore) hkey hafter hvalue

theorem SpellsMember.append_gap {m : Option String × Document} (h : SpellsMember w m)
    (hgap : IsGap gap) : SpellsMember (w ++ gap) m := by
  obtain ⟨hbefore, hkey, hafter, hvalue⟩ := h
  simp only [List.append_assoc, List.cons_append]
  exact .pair hbefore hkey hafter (hvalue.append_gap hgap)

/-- A gap after the last item belongs to that item. -/
theorem SpellsItems.append_gap {w : List Char} {items : List Document} (h : SpellsItems w items)
    (hgap : IsGap gap) : SpellsItems (w ++ gap) items := by
  match h with
  | .last hitem => exact .last (hitem.append_gap hgap)
  | .more hitem hrest =>
    rw [List.append_assoc, List.cons_append]
    exact .more hitem (hrest.append_gap hgap)

/-- A gap after the last member belongs to that member. -/
theorem SpellsMembers.append_gap {w : List Char} {members : List (Option String × Document)}
    (h : SpellsMembers w members) (hgap : IsGap gap) : SpellsMembers (w ++ gap) members := by
  match h with
  | .last hmember => exact .last (hmember.append_gap hgap)
  | .more hmember hrest =>
    rw [List.append_assoc, List.cons_append]
    exact .more hmember (hrest.append_gap hgap)

/-! ### Blocks -/

section Blocks

variable {texts : List (List Char)} (level : Nat)

/-- Every piece stands behind its line end, and the last one before that of the bracket. -/
theorem Json.block_eq (opening closing : Char) (hne : texts ≠ []) :
    Json.block opening closing level texts =
      opening :: (Json.commas (texts.map (Json.newline (level + 1) ++ ·)) ++ Json.newline level ++
        [closing]) := by
  rw [Json.block, if_neg (by simpa using hne)]
  simp

/-- A block of items in brackets is an array. -/
theorem Spells.itemBlock {items : List Document} (h : List.Forall₂ SpellsText texts items) :
    Spells (Json.block '[' ']' level texts) (.array items) := by
  by_cases hne : texts = []
  · subst hne
    cases h
    exact .noItems isGap_nil
  · have hlines : List.Forall₂ SpellsText (texts.map (Json.newline (level + 1) ++ ·)) items :=
      List.forall₂_map_left_iff.mpr (h.imp fun _ _ => .gap_append (isGap_newline _))
    rw [Json.block_eq level _ _ hne]
    exact .array ((SpellsItems.of_commas hlines (by simpa using hne)).append_gap (isGap_newline _))

/-- A block of members in braces is an object. -/
theorem Spells.memberBlock {members : List (Option String × Document)}
    (h : List.Forall₂ SpellsMember texts members) :
    Spells (Json.block '\x7b' '\x7d' level texts) (.object members) := by
  by_cases hne : texts = []
  · subst hne
    cases h
    exact .noMembers isGap_nil
  · have hlines : List.Forall₂ SpellsMember (texts.map (Json.newline (level + 1) ++ ·)) members :=
      List.forall₂_map_left_iff.mpr (h.imp fun _ _ => .gap_append (isGap_newline _))
    rw [Json.block_eq level _ _ hne]
    exact .object
      ((SpellsMembers.of_commas hlines (by simpa using hne)).append_gap (isGap_newline _))

end Blocks

/-! ### Values -/

namespace Json

-- Scalars are written as on one line. Items and members stand one level deeper, so the level is
-- general in the induction.
mutual

/-- A value is written with indentation as its document, at each level. -/
theorem spells_prettyAt (level : Nat) : ∀ {value : Json}, value.NumbersFit →
    Spells (value.prettyAt level) value.document
  | .null, h => spells_compact h
  | .bool true, h => spells_compact h
  | .bool false, h => spells_compact h
  | .number _, h => spells_compact h
  | .string _, h => spells_compact h
  | .array _, h => .itemBlock level (spellsText_prettyItems (level + 1) h)
  | .object _, h => .memberBlock level (spellsMember_prettyMembers (level + 1) h)

theorem spellsText_prettyItems (level : Nat) : ∀ {items : List Json}, ItemsFit items →
    List.Forall₂ SpellsText (prettyItems level items) (documents items)
  | [], _ => .nil
  | _ :: _, h => .cons (.of_spells (spells_prettyAt level h.1)) (spellsText_prettyItems level h.2)

theorem spellsMember_prettyMembers (level : Nat) : ∀ {members : List (String × Json)},
    MembersFit members →
    List.Forall₂ SpellsMember (prettyMembers level members) (memberDocuments members)
  | [], _ => .nil
  | (key, _) :: _, h => by
    have hblank : IsGap [' '] := fun c hc => by rw [List.mem_singleton.mp hc]; rfl
    -- A blank stands between the colon and the value.
    have hvalue := (SpellsText.of_spells (spells_prettyAt level h.1)).gap_append hblank
    exact .cons (.pair isGap_nil (spellsString_quoted key) isGap_nil hvalue)
      (spellsMember_prettyMembers level h.2)

end

/-- A value that is written over several lines is read back as its document. -/
theorem parse_pretty {value : Json} (h : value.NumbersFit) :
    Document.parse value.pretty = some value.document :=
  Document.parse_eq_some_iff.mpr (.of_spells (spells_prettyAt 0 h))

end Json

end GuidedTour
