import GuidedTour.Proofs.Json.Reading

namespace GuidedTour

open Document

/-!
# Texts that the reader accepts

Nothing is read but what the grammar allows.

* `ReadsSpelled` — what is true of the reader with a number of steps: what it goes past is a text of
  the grammar, with the document that it gives back;
* `readsSpelled` — that holds for every number of steps;
* `Document.parse_eq_some_iff` — a whole text is read as a document exactly if it spells it.
-/

variable {rest : List Char}

/-! ### Single steps -/

theorem exists_gap (s : List Char) : ∃ gap, IsGap gap ∧ s = gap ++ skipGap s :=
  ⟨s.takeWhile isGap, List.all_eq_true.mp List.all_takeWhile, List.takeWhile_append_dropWhile.symm⟩

/-- A word that is read stands at the start. -/
theorem eq_of_afterWord {word s : List Char} {value d : Document}
    (h : ((afterWord word s).map fun s => (value, s)) = some (d, rest)) :
    s = word ++ rest ∧ d = value := by
  obtain ⟨t, ht, heq⟩ := Option.map_eq_some_iff.mp h
  obtain ⟨rfl, rfl⟩ := Prod.mk.inj heq
  simp only [afterWord] at ht
  split at ht
  · rename_i hword
    obtain ⟨u, rfl⟩ := List.isPrefixOf_iff_prefix.mp hword
    exact ⟨by simpa using ht, rfl⟩
  · cases ht

/-- The reader of members reads one and then looks for a comma or a brace. -/
theorem exists_readsMember {n : Nat} {s : List Char} {done : List (Option String × Document)}
    {result : Document × List Char} (h : readMembers (n + 1) done s = some result) :
    ∃ m t, ReadsMember n s m t ∧
      ((∃ u, skipGap t = ',' :: u ∧ readMembers n (m :: done) u = some result) ∨
        ∃ u, skipGap t = '\x7d' :: u ∧ result = (.object (m :: done).reverse, u)) := by
  simp only [readMembers] at h
  split at h
  · rename_i t hquote
    split at h
    · cases h
    · rename_i key u hkey
      split at h
      · rename_i v hcolon
        split at h
        · cases h
        · rename_i value x hvalue
          -- The quote, the key, the colon and the value are there; what comes next decides.
          refine ⟨(key, value), x, ⟨t, u, v, hquote, hkey, hcolon, hvalue⟩, ?_⟩
          split at h
          · rename_i y hy
            exact .inl ⟨y, hy, h⟩
          · rename_i y hy
            exact .inr ⟨y, hy, (Option.some.inj h).symm⟩
          · cases h
      · cases h
  · cases h

/-! ### What the reader went past -/

/-- With so many steps the reader reads only what the grammar allows. Items and members are read from
behind the bracket, with those before them in `done`. -/
structure ReadsSpelled (n : Nat) : Prop where
  value : ∀ {s d rest}, readValue n s = some (d, rest) → ∃ w, s = w ++ rest ∧ Spells w d
  items : ∀ {done s d rest}, readItems n done s = some (d, rest) →
    ∃ w items, s = w ++ ']' :: rest ∧ SpellsItems w items ∧ d = .array (done.reverse ++ items)
  members : ∀ {done s d rest}, readMembers n done s = some (d, rest) →
    ∃ w members, s = w ++ '\x7d' :: rest ∧ SpellsMembers w members ∧
      d = .object (done.reverse ++ members)

namespace ReadsSpelled

variable {n : Nat} {s : List Char} {d : Document}

/-- What was read between two gaps is a value of the grammar with its gaps. -/
theorem text (h : ReadsSpelled n) (hread : readValue n (skipGap s) = some (d, rest)) :
    ∃ w, s = w ++ skipGap rest ∧ SpellsText w d := by
  obtain ⟨before, hbefore, hs⟩ := exists_gap s
  obtain ⟨after, hafter, hrest⟩ := exists_gap rest
  obtain ⟨w, hw, hvalue⟩ := h.value hread
  refine ⟨_, ?_, .padded hbefore hvalue hafter⟩
  rw [List.append_assoc, List.append_assoc, ← hrest, ← hw, ← hs]

/-- What was read after an opening bracket is an array of the grammar. -/
theorem array (h : ReadsSpelled n) (hread : readValue (n + 1) ('[' :: s) = some (d, rest)) :
    ∃ w, '[' :: s = w ++ rest ∧ Spells w d := by
  obtain ⟨gap, hgap, hs⟩ := exists_gap s
  simp only [readValue, beq_self_eq_true, if_true] at hread
  split at hread
  · -- Nothing but the gap stands before the closing bracket.
    rename_i t ht
    obtain ⟨rfl, rfl⟩ := Prod.mk.inj (Option.some.inj hread)
    rw [ht] at hs
    exact ⟨_, by rw [hs]; simp, .noItems hgap⟩
  · rw [readItems_skipGap] at hread
    obtain ⟨w, items, rfl, hitems, rfl⟩ := h.items hread
    exact ⟨_, by simp, .array hitems⟩

/-- What was read after an opening brace is an object of the grammar. -/
theorem object (h : ReadsSpelled n) (hread : readValue (n + 1) ('\x7b' :: s) = some (d, rest)) :
    ∃ w, '\x7b' :: s = w ++ rest ∧ Spells w d := by
  obtain ⟨gap, hgap, hs⟩ := exists_gap s
  simp only [readValue, beq_self_eq_true, if_true] at hread
  rw [if_neg (by decide)] at hread
  split at hread
  · rename_i t ht
    obtain ⟨rfl, rfl⟩ := Prod.mk.inj (Option.some.inj hread)
    rw [ht] at hs
    exact ⟨_, by rw [hs]; simp, .noMembers hgap⟩
  · rw [readMembers_skipGap] at hread
    obtain ⟨w, members, rfl, hmembers, rfl⟩ := h.members hread
    exact ⟨_, by simp, .object hmembers⟩

/-- With one step more, what was read is a value of the grammar. -/
theorem value_succ (h : ReadsSpelled n) (hread : readValue (n + 1) s = some (d, rest)) :
    ∃ w, s = w ++ rest ∧ Spells w d := by
  cases s with
  | nil => simp [readValue] at hread
  | cons c s =>
    -- The arms in the order in which the reader tries them.
    by_cases hbracket : c = '['
    · subst hbracket
      exact h.array hread
    by_cases hbrace : c = '\x7b'
    · subst hbrace
      exact h.object hread
    simp only [readValue, beq_iff_eq, hbracket, hbrace, if_false] at hread
    split at hread
    · rename_i hquote
      subst hquote
      simp only [Option.map_eq_some_iff, Prod.exists] at hread
      obtain ⟨text, t, htext, heq⟩ := hread
      obtain ⟨rfl, rfl⟩ := Prod.mk.inj heq
      obtain ⟨w, rfl, hw⟩ := exists_of_readString htext
      exact ⟨_, rfl, .string hw⟩
    split at hread
    · rename_i hletter
      subst hletter
      obtain ⟨rfl, rfl⟩ := eq_of_afterWord hread
      exact ⟨_, rfl, .null⟩
    split at hread
    · rename_i hletter
      subst hletter
      obtain ⟨rfl, rfl⟩ := eq_of_afterWord hread
      exact ⟨_, rfl, .true⟩
    split at hread
    · rename_i hletter
      subst hletter
      obtain ⟨rfl, rfl⟩ := eq_of_afterWord hread
      exact ⟨_, rfl, .false⟩
    · simp only [Option.map_eq_some_iff, Prod.exists] at hread
      obtain ⟨literal, t, hliteral, heq⟩ := hread
      obtain ⟨rfl, rfl⟩ := Prod.mk.inj heq
      obtain ⟨w, hw, hnumber⟩ := exists_of_readNumber hliteral
      exact ⟨w, hw, .number hnumber⟩

/-- With one step more, what was read are items of the grammar, up to the bracket. -/
theorem items_succ (h : ReadsSpelled n) {done : List Document}
    (hread : readItems (n + 1) done s = some (d, rest)) :
    ∃ w items, s = w ++ ']' :: rest ∧ SpellsItems w items ∧
      d = .array (done.reverse ++ items) := by
  simp only [readItems] at hread
  split at hread
  · cases hread
  · rename_i item t hitem
    obtain ⟨w, rfl, hw⟩ := h.text hitem
    split at hread
    · rename_i u hu
      -- Behind a comma the rest was read with fewer steps.
      obtain ⟨v, items, rfl, hitems, rfl⟩ := h.items hread
      exact ⟨_, _, by simp [hu], .more hw hitems, by simp⟩
    · rename_i u hu
      obtain ⟨rfl, rfl⟩ := Prod.mk.inj (Option.some.inj hread)
      exact ⟨_, _, by rw [hu], .last hw, by simp⟩
    · cases hread

/-- What was read as a member is a member of the grammar. -/
theorem member (h : ReadsSpelled n) {m : Option String × Document}
    (hread : ReadsMember n s m rest) : ∃ w, s = w ++ skipGap rest ∧ SpellsMember w m := by
  obtain ⟨t, u, v, hquote, hkey, hcolon, hvalue⟩ := hread
  obtain ⟨before, hbefore, hs⟩ := exists_gap s
  obtain ⟨after, hafter, hu⟩ := exists_gap u
  obtain ⟨name, rfl, hname⟩ := exists_of_readString hkey
  obtain ⟨w, rfl, hw⟩ := h.text hvalue
  rw [hquote] at hs
  rw [hcolon] at hu
  exact ⟨_, by rw [hs, hu]; simp, .pair hbefore hname hafter hw⟩

/-- With one step more, what was read are members of the grammar, up to the brace. -/
theorem members_succ (h : ReadsSpelled n) {done : List (Option String × Document)}
    (hread : readMembers (n + 1) done s = some (d, rest)) :
    ∃ w members, s = w ++ '\x7d' :: rest ∧ SpellsMembers w members ∧
      d = .object (done.reverse ++ members) := by
  obtain ⟨m, t, hmember, hrest⟩ := exists_readsMember hread
  obtain ⟨w, rfl, hw⟩ := h.member hmember
  rcases hrest with ⟨u, hu, hread⟩ | ⟨u, hu, heq⟩
  · obtain ⟨v, members, rfl, hmembers, rfl⟩ := h.members hread
    exact ⟨_, _, by simp [hu], .more hw hmembers, by simp⟩
  · obtain ⟨rfl, rfl⟩ := Prod.mk.inj heq
    exact ⟨_, _, by rw [hu], .last hw, by simp⟩

end ReadsSpelled

/-- Each function of the reader calls the others with one step less, so that one induction carries
all three. -/
theorem readsSpelled (n : Nat) : ReadsSpelled n := by
  induction n with
  | zero =>
    exact
      { value := fun h => by simp [readValue] at h
        items := fun h => by simp [readItems] at h
        members := fun h => by simp [readMembers] at h }
  | succ n ih => exact ⟨ih.value_succ, ih.items_succ, ih.members_succ⟩

/-- The reader accepts exactly the texts of the grammar, with the documents they spell. -/
theorem Document.parse_eq_some_iff {s : List Char} {d : Document} :
    parse s = some d ↔ SpellsText s d := by
  constructor
  · intro h
    simp only [parse, Document.read] at h
    split at h
    · rename_i rest hread
      obtain ⟨w, hw, htext⟩ := (readsSpelled _).text hread
      split at h
      · rename_i hend
        obtain rfl := Option.some.inj h
        rw [hw, List.isEmpty_iff.mp hend, List.append_nil]
        exact htext
      · cases h
    · cases h
  · intro h
    -- The reader has a step for each character and one more.
    obtain ⟨rest, hread, hskip⟩ := h.reads (s.length + 1) [] (by omega) (fun c hc => by cases hc)
    rw [List.append_nil] at hread
    have hend : skipGap rest = [] := hskip
    simp [parse, Document.read, hread, hend]

end GuidedTour
