import GuidedTour.Proofs.Json.Number
import GuidedTour.Proofs.Json.Quoted

namespace GuidedTour

open Document

/-!
# Reading JSON texts

Whatever the grammar allows is read as the document that the grammar gives.

* `Spells.exists_opens` and the like — how a text of the grammar begins, which is all that the
  reader looks at before it goes on;
* `readItems_comma`, `readMembers_brace` and the like — the reader step by step;
* `Spells.reads`, `SpellsText.reads` — a value is read to its end, if there are steps for each of its
  characters and what follows does not run into it.
-/

variable {w rest gap : List Char}

/-! ### Gaps -/

/-- A gap is skipped, and so is what follows it of a gap. -/
theorem skipGap_append (hgap : IsGap gap) (s : List Char) : skipGap (gap ++ s) = skipGap s :=
  List.dropWhile_append_of_pos hgap

theorem skipGap_cons {c : Char} (hc : isGap c = false) (s : List Char) :
    skipGap (c :: s) = c :: s := by
  simp [skipGap, hc]

/-- After a gap is skipped, there is none to skip. -/
@[simp] theorem skipGap_skipGap (s : List Char) : skipGap (skipGap s) = skipGap s := by
  -- The gap is skipped character by character until one is no gap.
  induction s with
  | nil => rfl
  | cons c s ih =>
    cases hc : isGap c with
    | true => simpa [skipGap, hc] using ih
    | false => simp [skipGap, hc]

/-- A number ends at a gap, and where there is none, at what follows. -/
theorem endsNumber_gap (hgap : IsGap gap) (hrest : EndsNumber rest) : EndsNumber (gap ++ rest) := by
  cases gap with
  | nil => exact hrest
  | cons c s =>
    intro d hd
    obtain rfl := Option.some.inj hd
    have hc := hgap c List.mem_cons_self
    simp only [isGap, Bool.or_eq_true, beq_iff_eq] at hc
    -- A number goes on with none of the four characters of a gap.
    rcases hc with ((rfl | rfl) | rfl) | rfl <;> decide

/-! ### How values begin -/

/-- A character that opens a value: no gap and no closing bracket. -/
def OpensValue (c : Char) : Prop := isGap c = false ∧ c ≠ ']'

/-- A number begins with a digit or a minus sign. -/
theorem SpellsNumber.exists_opens {t : NumberText} (h : SpellsNumber w t) :
    ∃ c s, w = c :: s ∧ (c.isDigit = true ∨ c = '-') := by
  cases h with
  | plain h =>
    obtain ⟨c, s, rfl, hc⟩ := h.exists_digit
    exact ⟨c, s, rfl, .inl hc⟩
  | minus h => exact ⟨_, _, rfl, .inr rfl⟩

/-- No other value opens like a number, and no gap does. -/
theorem ne_of_opensNumber {c d : Char} (hc : c.isDigit = true ∨ c = '-')
    (hd : d ∈ [' ', '\n', '\t', '\r', ']', '[', '\x7b', '"', 'n', 't', 'f']) : c ≠ d := by
  have hother : [' ', '\n', '\t', '\r', ']', '[', '\x7b', '"', 'n', 't', 'f'].all
      (fun d => !(d.isDigit || d == '-')) = true := by decide
  rintro rfl
  have hno := List.all_eq_true.mp hother c hd
  simp only [Bool.not_eq_true', Bool.or_eq_false_iff, beq_eq_false_iff_ne] at hno
  rcases hc with hdigit | hminus
  · exact Bool.false_ne_true (hno.1.symm.trans hdigit)
  · exact hno.2 hminus

/-- A value begins with a character that opens a value. -/
theorem Spells.exists_opens {d : Document} (h : Spells w d) : ∃ c s, w = c :: s ∧ OpensValue c := by
  cases h with
  | number h =>
    obtain ⟨c, s, rfl, hc⟩ := h.exists_opens
    have hne := fun d => ne_of_opensNumber (d := d) hc
    exact ⟨c, s, rfl, by simp [isGap, hne], hne _ (by simp)⟩
  | string h => obtain ⟨h⟩ := h; exact ⟨_, _, rfl, by decide, by decide⟩
  -- Words, arrays and objects begin with a character of their own.
  | _ => exact ⟨_, _, rfl, by decide, by decide⟩

/-- After the gap before it, a text begins with a character that opens a value. -/
theorem SpellsText.exists_opens {d : Document} (h : SpellsText w d) (rest : List Char) :
    ∃ c s, skipGap (w ++ rest) = c :: s ∧ OpensValue c := by
  obtain ⟨hbefore, hvalue, -⟩ := h
  obtain ⟨c, s, rfl, hc⟩ := hvalue.exists_opens
  exact ⟨c, _, by rw [List.append_assoc, skipGap_append hbefore]; exact skipGap_cons hc.1 _, hc⟩

theorem SpellsItems.exists_opens {items : List Document} (h : SpellsItems w items)
    (rest : List Char) : ∃ c s, skipGap (w ++ rest) = c :: s ∧ OpensValue c := by
  cases h with
  | last hitem => exact hitem.exists_opens rest
  | more hitem => rw [List.append_assoc]; exact hitem.exists_opens _

/-- After the gap before it, a member begins with the quote of its key. -/
theorem SpellsMember.exists_opens {m : Option String × Document} (h : SpellsMember w m)
    (rest : List Char) : ∃ s, skipGap (w ++ rest) = '"' :: s := by
  obtain ⟨hbefore, hkey, -, -⟩ := h
  obtain ⟨t, rfl, -⟩ := hkey.exists_reads
  exact ⟨_, by rw [List.append_assoc, skipGap_append hbefore]; exact skipGap_cons rfl _⟩

theorem SpellsMembers.exists_opens {members : List (Option String × Document)}
    (h : SpellsMembers w members) (rest : List Char) : ∃ s, skipGap (w ++ rest) = '"' :: s := by
  cases h with
  | last hmember => exact hmember.exists_opens rest
  | more hmember => rw [List.append_assoc]; exact hmember.exists_opens _

/-! ### Steps of the reader -/

section Steps

variable {n : Nat} {s : List Char}

theorem readItems_skipGap (done : List Document) :
    readItems n done (skipGap s) = readItems n done s := by
  cases n <;> simp [readItems]

theorem readMembers_skipGap (done : List (Option String × Document)) :
    readMembers n done (skipGap s) = readMembers n done s := by
  cases n <;> simp [readMembers]

/-- After an opening bracket, the array ends at once, or its items are read. -/
theorem readValue_bracket {c : Char} {t : List Char} (hs : skipGap s = c :: t) :
    readValue (n + 1) ('[' :: s) =
      if c = ']' then some (.array [], t) else readItems n [] s := by
  rw [← readItems_skipGap, hs]
  simp only [readValue, hs]
  -- The reader looks at the bracket with the gap skipped, and hands the items over with it.
  by_cases hc : c = ']' <;> simp [hc]

/-- After an opening brace, the object ends at once, or its members are read. -/
theorem readValue_brace {c : Char} {t : List Char} (hs : skipGap s = c :: t) :
    readValue (n + 1) ('\x7b' :: s) =
      if c = '\x7d' then some (.object [], t) else readMembers n [] s := by
  rw [← readMembers_skipGap, hs]
  simp only [readValue, hs]
  by_cases hc : c = '\x7d' <;> simp [hc]

/-- After a quote, a string is read. -/
theorem readValue_quote : readValue (n + 1) ('"' :: s) =
    (readString s).map fun (text, s) => (.string text, s) := by
  simp [readValue]

/-- After an item and a comma, the reader goes on with the next item. -/
theorem readItems_comma {done : List Document} {item : Document} {t u : List Char}
    (hitem : readValue n (skipGap s) = some (item, t)) (ht : skipGap t = ',' :: u) :
    readItems (n + 1) done s = readItems n (item :: done) u := by
  simp [readItems, hitem, ht]

/-- After an item and a closing bracket, the array is complete. -/
theorem readItems_bracket {done : List Document} {item : Document} {t u : List Char}
    (hitem : readValue n (skipGap s) = some (item, t)) (ht : skipGap t = ']' :: u) :
    readItems (n + 1) done s = some (.array (done.reverse ++ [item]), u) := by
  simp [readItems, hitem, ht]

/-- A member from its quote on: the key, the colon and the value. -/
def ReadsMember (n : Nat) (s : List Char) (m : Option String × Document) (rest : List Char) : Prop :=
  ∃ t u v, skipGap s = '"' :: t ∧ readString t = some (m.1, u) ∧ skipGap u = ':' :: v ∧
    readValue n (skipGap v) = some (m.2, rest)

/-- After a member and a comma, the reader goes on with the next member. -/
theorem readMembers_comma {done : List (Option String × Document)} {m : Option String × Document}
    {t u : List Char} (hmember : ReadsMember n s m t) (ht : skipGap t = ',' :: u) :
    readMembers (n + 1) done s = readMembers n (m :: done) u := by
  obtain ⟨_, _, _, hquote, hkey, hcolon, hvalue⟩ := hmember
  simp [readMembers, hquote, hkey, hcolon, hvalue, ht]

/-- After a member and a closing brace, the object is complete. -/
theorem readMembers_brace {done : List (Option String × Document)} {m : Option String × Document}
    {t u : List Char} (hmember : ReadsMember n s m t) (ht : skipGap t = '\x7d' :: u) :
    readMembers (n + 1) done s = some (.object (done.reverse ++ [m]), u) := by
  obtain ⟨_, _, _, hquote, hkey, hcolon, hvalue⟩ := hmember
  simp [readMembers, hquote, hkey, hcolon, hvalue, ht]

end Steps

/-! ### Every value is read -/

/-- A number is read to its end, if what follows does not go on with it. -/
theorem SpellsNumber.reads {t : NumberText} (h : SpellsNumber w t) (n : Nat)
    (hrest : EndsNumber rest) :
    readValue (n + 1) (w ++ rest) = some (.number t.value, rest) := by
  have hread := readNumber_of_spells h hrest
  obtain ⟨c, s, rfl, hc⟩ := h.exists_opens
  have hne := fun d => ne_of_opensNumber (d := d) hc
  rw [List.cons_append] at hread ⊢
  -- None of the reader's other cases begins like a number.
  simp [readValue, hne, hread]

/-- What follows an item or a member does not run into a number. -/
theorem endsNumber_cons {c : Char} (hc : c ∈ [',', ']', '\x7d']) (s : List Char) :
    EndsNumber (c :: s) := by
  intro d hd
  obtain rfl := Option.some.inj hd
  simp only [List.mem_cons, List.not_mem_nil, or_false] at hc
  rcases hc with rfl | rfl | rfl <;> decide

-- The recursion is on the derivation. Every value has a character and every bracket and comma is
-- one, so where the reader calls itself with one step less, the text it has to read is shorter too.
mutual

/-- A value is read as the document that the grammar gives for it. -/
theorem Spells.reads {w : List Char} {d : Document} (h : Spells w d) :
    ∀ n rest, w.length ≤ n → EndsNumber rest → readValue n (w ++ rest) = some (d, rest) := by
  intro n rest hn hrest
  -- A value has a character, so there is at least one step.
  obtain ⟨n, rfl⟩ : ∃ m, n = m + 1 := by
    obtain ⟨c, s, rfl, -⟩ := h.exists_opens
    exact ⟨n - 1, by simp at hn; omega⟩
  match h with
  | .null => simp [readValue, afterWord]
  | .true => simp [readValue, afterWord]
  | .false => simp [readValue, afterWord]
  | .number h => exact h.reads n hrest
  | .string h =>
    obtain ⟨t, rfl, hread⟩ := h.exists_reads
    rw [List.cons_append, readValue_quote, hread]
    rfl
  | .noItems hgap =>
    rw [List.cons_append, List.append_assoc, readValue_bracket (skipGap_append hgap _), if_pos rfl]
    rfl
  | .array h =>
    -- The reader looks for a closing bracket before it looks for items.
    obtain ⟨c, t, hskip, hc⟩ := h.exists_opens (']' :: rest)
    have hread := h.reads n rest [] (by simp at hn; omega)
    rw [List.cons_append, List.append_assoc, List.singleton_append, readValue_bracket hskip,
      if_neg hc.2]
    exact hread
  | .noMembers hgap =>
    rw [List.cons_append, List.append_assoc, readValue_brace (skipGap_append hgap _), if_pos rfl]
    rfl
  | .object h =>
    obtain ⟨t, hskip⟩ := h.exists_opens ('\x7d' :: rest)
    have hread := h.reads n rest [] (by simp at hn; omega)
    rw [List.cons_append, List.append_assoc, List.singleton_append, readValue_brace hskip,
      if_neg (by decide)]
    exact hread

/-- A value with gaps around it is read, and the gap after it may be left over. -/
theorem SpellsText.reads {w : List Char} {d : Document} (h : SpellsText w d) :
    ∀ n rest, w.length ≤ n → EndsNumber rest →
      ∃ s, readValue n (skipGap (w ++ rest)) = some (d, s) ∧ skipGap s = skipGap rest := by
  intro n rest hn hrest
  match h with
  | @SpellsText.padded before s after _ hbefore hvalue hafter =>
    have hread := hvalue.reads n (after ++ rest) (by simp at hn; omega)
      (endsNumber_gap hafter hrest)
    -- The gap that is skipped is the one before the value, for no value begins with a gap.
    obtain ⟨c, t, rfl, hc⟩ := hvalue.exists_opens
    refine ⟨after ++ rest, ?_, skipGap_append hafter rest⟩
    rw [List.append_assoc, skipGap_append hbefore]
    simpa [skipGap_cons hc.1] using hread

/-- Items are read up to the bracket that closes the array. -/
theorem SpellsItems.reads {w : List Char} {items : List Document} (h : SpellsItems w items) :
    ∀ n rest (done : List Document), w.length < n →
      readItems n done (w ++ ']' :: rest) = some (.array (done.reverse ++ items), rest) := by
  intro n rest done hn
  obtain ⟨n, rfl⟩ : ∃ m, n = m + 1 := ⟨n - 1, by omega⟩
  match h with
  | .last hitem =>
    obtain ⟨s, hread, hskip⟩ :=
      hitem.reads n (']' :: rest) (by omega) (endsNumber_cons (by simp) _)
    exact readItems_bracket hread hskip
  | @SpellsItems.more _ t item _ hitem hitems =>
    rw [List.length_append, List.length_cons] at hn
    obtain ⟨u, hread, hskip⟩ :=
      hitem.reads n (',' :: (t ++ ']' :: rest)) (by omega) (endsNumber_cons (by simp) _)
    have hrest := hitems.reads n rest (item :: done) (by omega)
    -- The item is put on the front of those that were read, which are reversed at the end.
    rw [List.append_assoc, List.cons_append, readItems_comma hread hskip, hrest]
    simp

/-- A member is read, key and value, and the gap after it may be left over. -/
theorem SpellsMember.reads {w : List Char} {m : Option String × Document} (h : SpellsMember w m) :
    ∀ n rest, w.length ≤ n → EndsNumber rest →
      ∃ s, ReadsMember n (w ++ rest) m s ∧ skipGap s = skipGap rest := by
  intro n rest hn hrest
  match h with
  | @SpellsMember.pair _ _ after v _ _ hbefore hkey hafter hvalue =>
    obtain ⟨t, rfl, hread⟩ := hkey.exists_reads
    obtain ⟨s, hreadv, hskip⟩ := hvalue.reads n rest (by simp at hn; omega) hrest
    have hquote : ∀ u, skipGap ('"' :: u) = '"' :: u := skipGap_cons rfl
    have hcolon : ∀ u, skipGap (':' :: u) = ':' :: u := skipGap_cons rfl
    refine ⟨s, ⟨_, after ++ ':' :: (v ++ rest), _, ?_, hread _, ?_, hreadv⟩, hskip⟩
    · simp [skipGap_append hbefore, hquote]
    · rw [skipGap_append hafter, hcolon]

/-- Members are read up to the brace that closes the object. -/
theorem SpellsMembers.reads {w : List Char} {members : List (Option String × Document)}
    (h : SpellsMembers w members) :
    ∀ n rest (done : List (Option String × Document)), w.length < n →
      readMembers n done (w ++ '\x7d' :: rest) =
        some (.object (done.reverse ++ members), rest) := by
  intro n rest done hn
  obtain ⟨n, rfl⟩ : ∃ m, n = m + 1 := ⟨n - 1, by omega⟩
  match h with
  | .last hmember =>
    obtain ⟨s, hread, hskip⟩ :=
      hmember.reads n ('\x7d' :: rest) (by omega) (endsNumber_cons (by simp) _)
    exact readMembers_brace hread hskip
  | @SpellsMembers.more _ t m _ hmember hmembers =>
    rw [List.length_append, List.length_cons] at hn
    obtain ⟨u, hread, hskip⟩ :=
      hmember.reads n (',' :: (t ++ '\x7d' :: rest)) (by omega) (endsNumber_cons (by simp) _)
    have hrest := hmembers.reads n rest (m :: done) (by omega)
    rw [List.append_assoc, List.cons_append, readMembers_comma hread hskip, hrest]
    simp

end

end GuidedTour
