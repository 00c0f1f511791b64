import GuidedTour.Proofs.Json.Accepted
import GuidedTour.Tour.Answer

namespace GuidedTour

/-!
# Arrays in prose

The scan for the first array of an answer knows only brackets, quotes and backslashes. On the texts
of the JSON grammar that is enough.

* `Answer.IsPassed` — the scan goes past a text without closing an array that was open before it;
* `Spells.isPassed` — it goes past every value;
* `Answer.closeArray_array` — at the start of an array it stops at the bracket that closes the array;
* `Answer.array?_between` — an array behind prose without brackets is found, whatever follows it.
-/

namespace Answer

variable {w v : List Char}

/-- The characters that a scan outside strings heeds. -/
def isMark (c : Char) : Bool := c == '"' || c == '[' || c == ']'

/-- A scan that is inside an array and outside strings is so again behind the text, and as deep as
before. -/
def IsPassed (w : List Char) : Prop :=
  ∀ (depth : Nat) (done s : List Char), 1 ≤ depth →
    closeArray .plain depth done (w ++ s) = closeArray .plain depth (w.reverse ++ done) s

namespace IsPassed

theorem nil : IsPassed [] := fun _ _ _ _ => rfl

/-- What is passed over in two parts is passed over as one. -/
theorem append (hw : IsPassed w) (hv : IsPassed v) : IsPassed (w ++ v) := by
  intro depth done s hdepth
  rw [List.append_assoc, hw depth done _ hdepth, hv depth _ s hdepth]
  simp

/-- A character that is no mark is passed over with what follows it. -/
theorem cons {c : Char} (hc : isMark c = false) (hw : IsPassed w) : IsPassed (c :: w) := by
  intro depth done s hdepth
  simp only [isMark, Bool.or_eq_false_iff, beq_eq_false_iff_ne] at hc
  simp [closeArray, hc, hw depth _ s hdepth]

/-- A text without marks. -/
theorem of_marks (h : w.any isMark = false) : IsPassed w := by
  induction w with
  | nil => exact nil
  | cons c s ih =>
    obtain ⟨hc, hs⟩ := Bool.or_eq_false_iff.mp h
    exact cons hc (ih hs)

/-- One level deeper at the opening bracket, one level up at the closing one. -/
theorem brackets (hw : IsPassed w) : IsPassed ('[' :: (w ++ [']'])) := by
  intro depth done s hdepth
  have hinner := hw (depth + 1) ('[' :: done) (']' :: s) (by omega)
  have hclose : ¬depth + 1 ≤ 1 := by omega
  simp [closeArray, hinner, hclose]

/-- From the bracket before the text the scan stops at the bracket behind it. -/
theorem closeArray_brackets (hw : IsPassed w) (after : List Char) :
    closeArray .plain 0 [] ('[' :: (w ++ [']']) ++ after) = some ('[' :: (w ++ [']'])) := by
  have hinner := hw 1 ['['] (']' :: after) (Nat.le_refl 1)
  simp [closeArray, hinner]

end IsPassed

end Answer

open Answer

variable {w : List Char}

/-! ### Gaps and scalars -/

/-- A hexadecimal digit is neither a backslash nor a quote. -/
theorem hexValue?_ne {c : Char} {n : Nat} (h : hexValue? c = some n) : c ≠ '\\' ∧ c ≠ '"' := by
  constructor <;> rintro rfl <;> simp [hexValue?] at h

/-- From inside a string the scan comes to its closing quote. -/
theorem SpellsPieces.closeArray_eq {pieces : List StringPiece} (h : SpellsPieces w pieces)
    (depth : Nat) (done s : List Char) :
    closeArray .quoted depth done (w ++ '"' :: s) =
      closeArray .plain depth ('"' :: (w.reverse ++ done)) s := by
  induction h generalizing done with
  | nil => simp [closeArray]
  | char hcontrol hquote hbackslash _ ih => simp [closeArray, hquote, hbackslash, ih]
  | escape hletter _ ih => simp [closeArray, ih]
  | unit hunit _ ih =>
    -- The scan goes past the `u` alone as an escape; its digits neither quote nor escape anything.
    simp only [hexUnit?, Option.pure_def, Option.bind_eq_bind, Option.bind_eq_some_iff] at hunit
    obtain ⟨_, ha, _, hb, _, hc, _, hd, -⟩ := hunit
    simp [closeArray, hexValue?_ne ha, hexValue?_ne hb, hexValue?_ne hc, hexValue?_ne hd, ih]

/-- A string literal is passed over, whatever stands in it. -/
theorem SpellsString.isPassed {text : Option String} (h : SpellsString w text) : IsPassed w := by
  obtain ⟨h⟩ := h
  intro depth done s hdepth
  simp [closeArray, h.closeArray_eq]

/-- Digits are passed over. -/
theorem IsDigits.isPassed (h : IsDigits w) : IsPassed w := by
  refine .of_marks (List.any_eq_false.mpr fun c hc hmark => ?_)
  have hdigit := h.2 c hc
  simp only [isMark, Bool.or_eq_true, beq_iff_eq] at hmark
  rcases hmark with (rfl | rfl) | rfl <;> exact absurd hdigit (by decide)

theorem SpellsFraction.isPassed {f : Option (List Char)} (h : SpellsFraction w f) :
    IsPassed w := by
  cases h with
  | absent => exact .nil
  | present hdigits => exact .cons rfl hdigits.isPassed

theorem SpellsSign.isPassed {down : Bool} (h : SpellsSign w down) : IsPassed w := by
  cases h <;> exact .of_marks rfl

theorem SpellsExponent.isPassed {e : Option (Bool × List Char)} (h : SpellsExponent w e) :
    IsPassed w := by
  cases h with
  | absent => exact .nil
  | present hletter hsign hdigits =>
    refine .cons ?_ (hsign.isPassed.append hdigits.isPassed)
    rcases hletter with rfl | rfl <;> rfl

theorem SpellsUnsigned.isPassed {negative : Bool} {t : NumberText}
    (h : SpellsUnsigned negative w t) : IsPassed w := by
  obtain ⟨hwhole, hfraction, hexponent⟩ := h
  exact hwhole.1.isPassed.append (hfraction.isPassed.append hexponent.isPassed)

/-- A number literal is passed over. -/
theorem SpellsNumber.isPassed {t : NumberText} (h : SpellsNumber w t) : IsPassed w := by
  cases h with
  | plain h => exact h.isPassed
  | minus h => exact .cons rfl h.isPassed

/-- A gap is passed over. -/
theorem IsGap.isPassed (h : IsGap w) : IsPassed w := by
  refine .of_marks (List.any_eq_false.mpr fun c hc hmark => ?_)
  have hgap := h c hc
  simp only [isMark, Bool.or_eq_true, beq_iff_eq] at hmark
  rcases hmark with (rfl | rfl) | rfl <;> exact absurd hgap (by decide)

/-! ### Values -/

-- Marks stand only in strings, which are passed from quote to quote, and around arrays, whose
-- brackets match by the derivation. All else is a concatenation of passed texts.
mutual

/-- A value is passed over, for every bracket in it is closed again. -/
theorem Spells.isPassed {w : List Char} {d : Document} (h : Spells w d) : IsPassed w := by
  match h with
  | .null => exact .of_marks rfl
  | .true => exact .of_marks rfl
  | .false => exact .of_marks rfl
  | .number h => exact h.isPassed
  | .string h => exact h.isPassed
  | .noItems hgap => exact hgap.isPassed.brackets
  | .array h => exact h.isPassed.brackets
  | .noMembers hgap => exact .cons rfl (hgap.isPassed.append (.cons rfl .nil))
  | .object h => exact .cons rfl (h.isPassed.append (.cons rfl .nil))

/-- A value with gaps around it is passed over. -/
theorem SpellsText.isPassed {w : List Char} {d : Document} (h : SpellsText w d) : IsPassed w := by
  match h with
  | .padded hbefore hvalue hafter =>
    exact hbefore.isPassed.append (hvalue.isPassed.append hafter.isPassed)

theorem SpellsItems.isPassed {w : List Char} {items : List Document} (h : SpellsItems w items) :
    IsPassed w := by
  match h with
  | .last hitem => exact hitem.isPassed
  | .more hitem hrest => exact hitem.isPassed.append (.cons rfl hrest.isPassed)

theorem SpellsMember.isPassed {w : List Char} {m : Option String × Document}
    (h : SpellsMember w m) : IsPassed w := by
  match h with
  | .pair hbefore hkey hafter hvalue =>
    exact hbefore.isPassed.append (hkey.isPassed.append
      (hafter.isPassed.append (.cons rfl hvalue.isPassed)))

theorem SpellsMembers.isPassed {w : List Char} {members : List (Option String × Document)}
    (h : SpellsMembers w members) : IsPassed w := by
  match h with
  | .last hmember => exact hmember.isPassed
  | .more hmember hrest => exact hmember.isPassed.append (.cons rfl hrest.isPassed)

end

/-! ### The first array of a text -/

/-- A value that begins with a bracket is an array. -/
theorem Spells.exists_items {s : List Char} {d : Document} (h : Spells ('[' :: s) d) :
    ∃ items, d = .array items := by
  generalize hw : '[' :: s = w at h
  cases h with
  | number h =>
    obtain ⟨c, t, rfl, hc⟩ := h.exists_opens
    exact absurd (List.cons.inj hw).1.symm (ne_of_opensNumber hc (by simp))
  | string h =>
    obtain ⟨h⟩ := h
    exact absurd (List.cons.inj hw).1 (by decide)
  | noItems | array => exact ⟨_, rfl⟩
  | _ => exact absurd (List.cons.inj hw).1 (by decide)

namespace Answer

variable {before array after : List Char} {items : List Document}

/-- From the bracket that opens an array the scan stops at the bracket that closes it. -/
theorem closeArray_array (h : Spells array (.array items)) (after : List Char) :
    closeArray .plain 0 [] (array ++ after) = some array := by
  -- Between the brackets is a gap or a row of items, and both are passed.
  cases h with
  | noItems hgap => exact hgap.isPassed.closeArray_brackets after
  | array hitems => exact hitems.isPassed.closeArray_brackets after

/-- Prose without brackets is passed over. -/
theorem array?_prose (hbefore : '[' ∉ before) (s : List Char) :
    array? (before ++ s) = array? s := by
  have hpassed : ∀ c ∈ before, (c != '[') = true := fun c hc => by
    simpa using ne_of_mem_of_not_mem hc hbefore
  rw [array?, array?, List.dropWhile_append_of_pos hpassed]

/-- An array at the start of a text is found whole. -/
theorem array?_append (h : Spells array (.array items)) (after : List Char) :
    array? (array ++ after) = some array := by
  have hstart : ∃ s, array = '[' :: s := by
    cases h <;> exact ⟨_, rfl⟩
  obtain ⟨s, rfl⟩ := hstart
  exact closeArray_array h after

/-- **An array in prose is found whole**, whatever stands in its strings and however deep its
brackets nest, if no bracket stands before it. -/
theorem array?_between (hbefore : '[' ∉ before) (harray : Spells array (.array items))
    (after : List Char) : array? (before ++ array ++ after) = some array := by
  rw [List.append_assoc, array?_prose hbefore, array?_append harray]

/-- Brackets, quotes and backslashes in strings, and a bracket written as a code unit. -/
theorem array?_between_trickyStrings :
    let before := "Here (1]: ".toList
    let array := "[ \x7b\"a\": \"] \\\" [ \\\\\"\x7d, [-1e9, \"\\u005b\"]\n]".toList
    let after := " and [more]".toList
    '[' ∉ before ∧ (∃ items, Spells array (.array items)) ∧
      array? (before ++ array ++ after) = some array := by
  intro before array after
  -- The reader finds the derivation, of which only the value is needed.
  obtain ⟨⟨d, rest⟩, hread, hrest⟩ := Option.map_eq_some_iff.mp
    (show (Document.readValue 60 array).map Prod.snd = some [] by decide +kernel)
  obtain rfl : rest = [] := hrest
  obtain ⟨w, hw, hspells⟩ := (readsSpelled 60).value hread
  rw [List.append_nil] at hw
  subst hw
  obtain ⟨items, rfl⟩ := hspells.exists_items
  exact ⟨by decide, ⟨items, hspells⟩, array?_between (by decide) hspells _⟩

end Answer

end GuidedTour
