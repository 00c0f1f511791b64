import GuidedTour.Proofs.ArrayScan
import GuidedTour.Proofs.Prose
import Mathlib.Data.List.Infix
import Mathlib.Data.List.TakeWhile

namespace GuidedTour.Answer

/-!
# Bracketed parts of an answer

What the scan for an array goes past, as a grammar of its own, and which part of a text it finds.

* `IsBalanced` — a text whose brackets match, those inside strings left aside;
* `IsBracketed`, `Opens` — such a text between brackets, and a text that begins with one;
* `IsFirstBracketed` — the part of a text that begins at the earliest place where one does;
* `array?_eq_some_iff` — the scan finds what the first bracket of a text opens, and nothing else;
* `array?_isFirstBracketed` — so it finds the first bracketed part only if no bracket before it stays
  open;
* `array?_misses_bracketed` — an answer in which one does.
-/

variable {a w s : List Char}

/-! ### Balanced texts -/

/-- What may stand between the quotes of a string. A backslash takes the next character along. -/
inductive IsQuotable : List Char → Prop
  | nil : IsQuotable []
  | char {c : Char} {s : List Char} (hquote : c ≠ '"') (hbackslash : c ≠ '\\')
      (hrest : IsQuotable s) : IsQuotable (c :: s)
  | escaped {c : Char} {s : List Char} (hrest : IsQuotable s) : IsQuotable ('\\' :: c :: s)

/-- A text whose brackets match. Brackets between the quotes of a string do not count. -/
inductive IsBalanced : List Char → Prop
  | nil : IsBalanced []
  | char {c : Char} {s : List Char} (hc : isMark c = false) (hrest : IsBalanced s) :
      IsBalanced (c :: s)
  | string {q s : List Char} (hquoted : IsQuotable q) (hrest : IsBalanced s) :
      IsBalanced ('"' :: (q ++ '"' :: s))
  | brackets {w s : List Char} (hinside : IsBalanced w) (hrest : IsBalanced s) :
      IsBalanced ('[' :: (w ++ ']' :: s))

/-- A balanced text between brackets. -/
def IsBracketed (a : List Char) : Prop := ∃ w, IsBalanced w ∧ a = '[' :: (w ++ [']'])

/-- A text that begins with a bracketed part. -/
def Opens (s : List Char) : Prop := ∃ a after, s = a ++ after ∧ IsBracketed a

/-- The bracketed part of a text that begins first: wherever else one begins, it begins behind. -/
def IsFirstBracketed (s a : List Char) : Prop :=
  ∃ before after, s = before ++ (a ++ after) ∧ IsBracketed a ∧
    ∀ t, t <:+ s → Opens t → t <:+ a ++ after

/-! ### What the scan goes past -/

/-- From inside a string the scan comes to its closing quote. -/
theorem IsQuotable.past?_eq (h : IsQuotable w) (depth : Nat) :
    Scan.past? ⟨.quoted, depth⟩ (w ++ ['"']) = some ⟨.plain, depth⟩ := by
  induction h with
  | nil => rfl
  | char hquote hbackslash _ ih =>
    simpa [Scan.next?, Mode.next, hquote, hbackslash] using ih
  | escaped _ ih => simpa [Scan.next?, Mode.next] using ih

/-- Inside a string, the scan comes to the quote that ends it. -/
theorem IsQuotable.closeArray_eq (h : IsQuotable w) (depth : Nat) (done s : List Char) :
    closeArray .quoted depth done (w ++ '"' :: s) =
      closeArray .plain depth ('"' :: (w.reverse ++ done)) s := by
  simpa using Scan.closeArray_append (h.past?_eq depth) done s

/-- A scan inside an array is behind a balanced text where it was before it. -/
theorem IsBalanced.past?_eq (h : IsBalanced w) {depth : Nat} (hdepth : 1 ≤ depth) :
    Scan.past? ⟨.plain, depth⟩ w = some ⟨.plain, depth⟩ := by
  -- The depth goes up inside the brackets and comes back behind them.
  induction h generalizing depth with
  | nil => rfl
  | char hc _ ih =>
    simp only [isMark, Bool.or_eq_false_iff, beq_eq_false_iff_ne] at hc
    simpa [Scan.next?, Mode.next, hc] using ih hdepth
  | @string q s hquoted _ ih =>
    have hopened : Scan.next? ⟨.plain, depth⟩ '"' = some ⟨.quoted, depth⟩ := rfl
    have hstring : q ++ '"' :: s = (q ++ ['"']) ++ s := by simp
    rw [Scan.past?_cons, hopened, Option.bind_some, hstring, Scan.past?_append,
      hquoted.past?_eq, Option.bind_some, ih hdepth]
  | brackets _ _ hinside hrest =>
    have hopened : Scan.next? ⟨.plain, depth⟩ '[' = some ⟨.plain, depth + 1⟩ := rfl
    have hdeep : ¬depth + 1 ≤ 1 := by omega
    have hclosed : Scan.next? ⟨.plain, depth + 1⟩ ']' = some ⟨.plain, depth⟩ := by
      simp [Scan.next?, hdeep]
    rw [Scan.past?_cons, hopened, Option.bind_some, Scan.past?_append,
      hinside (Nat.le_add_left 1 depth), Option.bind_some, Scan.past?_cons, hclosed,
      Option.bind_some, hrest hdepth]

/-- A balanced text is passed over. -/
theorem IsBalanced.isPassed (h : IsBalanced w) : IsPassed w :=
  fun _ done s hdepth => Scan.closeArray_append (h.past?_eq hdepth) done s

/-- A scan that comes to an end inside a string has gone past the closing quote. Behind a backslash
it has gone past one character more. -/
theorem exists_isQuotable (depth : Nat) (done s : List Char) :
    (closeArray .quoted depth done s = some a →
      ∃ q rest, s = q ++ '"' :: rest ∧ IsQuotable q) ∧
    (closeArray .escaped depth done s = some a →
      ∃ c q rest, s = c :: (q ++ '"' :: rest) ∧ IsQuotable q) := by
  -- Both modes at once, for each of them goes over into the other.
  induction s generalizing done with
  | nil => simp [closeArray]
  | cons c s ih =>
    obtain ⟨hquoted, hescaped⟩ := ih (c :: done)
    refine ⟨fun h => ?_, fun h => ?_⟩
    · by_cases hbackslash : c = '\\'
      · subst hbackslash
        obtain ⟨c, q, rest, rfl, hq⟩ := hescaped h
        exact ⟨'\\' :: c :: q, rest, rfl, .escaped hq⟩
      by_cases hquote : c = '"'
      · subst hquote
        exact ⟨[], s, rfl, .nil⟩
      · simp only [closeArray, beq_iff_eq, hbackslash, hquote, if_false] at h
        obtain ⟨q, rest, rfl, hq⟩ := hquoted h
        exact ⟨c :: q, rest, rfl, .char hquote hbackslash hq⟩
    · obtain ⟨q, rest, rfl, hq⟩ := hquoted h
      exact ⟨c, q, rest, rfl, hq⟩

/-- A scan that comes to an end has gone past a balanced text to the bracket that closes the array
it stood in. -/
theorem exists_isBalanced {depth : Nat} {done s : List Char} (hdepth : 1 ≤ depth)
    (h : closeArray .plain depth done s = some a) :
    ∃ w rest, s = w ++ ']' :: rest ∧ IsBalanced w := by
  -- What follows a string or an inner array is shorter, but no tail, so the induction is on length.
  induction hn : s.length using Nat.strongRecOn generalizing s depth done with
  | _ n ih =>
    cases s with
    | nil => simp [closeArray] at h
    | cons c s =>
      subst hn
      by_cases hquote : c = '"'
      · subst hquote
        obtain ⟨q, t, rfl, hq⟩ := (exists_isQuotable depth ('"' :: done) s).1 h
        rw [closeArray] at h
        simp only [beq_self_eq_true, if_true, hq.closeArray_eq] at h
        obtain ⟨w, rest, rfl, hw⟩ := ih t.length (by simp; omega) hdepth h rfl
        exact ⟨'"' :: (q ++ '"' :: w), rest, by simp, .string hq hw⟩
      by_cases hopen : c = '['
      · subst hopen
        have hinner : closeArray .plain (depth + 1) ('[' :: done) s = some a := by
          simpa [closeArray] using h
        obtain ⟨w, t, rfl, hw⟩ := ih s.length (by simp) (by omega) hinner rfl
        -- The inner array is closed, and the scan is as deep as before it.
        have hdeep : ¬ depth + 1 ≤ 1 := by omega
        rw [hw.isPassed (depth + 1) _ _ (by omega)] at hinner
        simp only [closeArray, beq_self_eq_true, if_true, hdeep, if_false] at hinner
        obtain ⟨v, rest, rfl, hv⟩ := ih t.length (by simp; omega) hdepth hinner rfl
        exact ⟨'[' :: (w ++ ']' :: v), rest, by simp, .brackets hw hv⟩
      by_cases hclose : c = ']'
      · subst hclose
        exact ⟨[], s, rfl, .nil⟩
      · have hnext : closeArray .plain depth (c :: done) s = some a := by
          simpa [closeArray, hquote, hopen, hclose] using h
        obtain ⟨w, rest, rfl, hw⟩ := ih s.length (by simp) hdepth hnext rfl
        exact ⟨c :: w, rest, rfl, .char (by simp [isMark, hquote, hopen, hclose]) hw⟩

/-! ### What the scan finds -/

/-- From the bracket that opens a part the scan stops at the one that closes it. -/
theorem IsBracketed.closeArray_eq (h : IsBracketed a) (after : List Char) :
    closeArray .plain 0 [] (a ++ after) = some a := by
  obtain ⟨w, hw, rfl⟩ := h
  exact hw.isPassed.closeArray_brackets after

/-- A bracketed text begins with a bracket. -/
theorem IsBracketed.head? (h : IsBracketed a) : a.head? = some '[' := by
  obtain ⟨w, -, rfl⟩ := h
  rfl

/-- Two bracketed parts that begin at one place are the same. -/
theorem IsBracketed.unique {b after rest : List Char} (ha : IsBracketed a) (hb : IsBracketed b)
    (h : a ++ after = b ++ rest) : a = b := by
  have hscan := ha.closeArray_eq after
  rw [h, hb.closeArray_eq rest] at hscan
  exact (Option.some.inj hscan).symm

theorem opens_iff : Opens s ↔
    s.head? = some '[' ∧ (closeArray .plain 0 [] s).isSome = true := by
  constructor
  · rintro ⟨a, after, rfl, ha⟩
    exact ⟨by rw [List.head?_append, ha.head?, Option.some_or], by rw [ha.closeArray_eq]; rfl⟩
  · rintro ⟨hhead, hsome⟩
    obtain ⟨t, rfl⟩ := List.head?_eq_some_iff.mp hhead
    obtain ⟨a, ha⟩ := Option.isSome_iff_exists.mp hsome
    have hinner : closeArray .plain 1 ['['] t = some a := ha
    obtain ⟨w, rest, rfl, hw⟩ := exists_isBalanced (Nat.le_refl 1) hinner
    exact ⟨'[' :: (w ++ [']']), rest, by simp, w, hw, rfl⟩

/-- A text is bracketed exactly if the scan finds all of it. -/
theorem isBracketed_iff : IsBracketed a ↔
    a.head? = some '[' ∧ closeArray .plain 0 [] a = some a := by
  constructor
  · intro h
    have hscan := h.closeArray_eq []
    exact ⟨h.head?, by simpa using hscan⟩
  · rintro ⟨hhead, hscan⟩
    obtain ⟨b, after, ha, hb⟩ := opens_iff.mpr ⟨hhead, by rw [hscan]; rfl⟩
    have hall := hb.closeArray_eq after
    rw [← ha, hscan] at hall
    exact Option.some.inj hall ▸ hb

instance : DecidablePred Opens := fun _ => decidable_of_iff _ opens_iff.symm

instance : DecidablePred IsBracketed := fun _ => decidable_of_iff _ isBracketed_iff.symm

/-- The text from its first bracket on, where the scan begins. -/
def fromBracket (s : List Char) : List Char := s.dropWhile (· != '[')

/-- From the first bracket on there is nothing, or a text that begins with it. -/
theorem fromBracket_eq_nil_or (s : List Char) :
    fromBracket s = [] ∨ (fromBracket s).head? = some '[' := by
  have hfirst := List.head?_dropWhile_not (· != '[') s
  rw [← fromBracket] at hfirst
  cases hs : fromBracket s with
  | nil => exact .inl rfl
  | cons c t => exact .inr (by simpa [hs] using hfirst)

/-- Before the first bracket there is none. -/
theorem exists_fromBracket (s : List Char) :
    ∃ before, s = before ++ fromBracket s ∧ '[' ∉ before := by
  refine ⟨s.takeWhile (· != '['), List.takeWhile_append_dropWhile.symm, fun hmem => ?_⟩
  simpa using List.mem_takeWhile_imp hmem

/-- The scan finds something exactly if the first bracket opens a bracketed part. -/
theorem opens_fromBracket_iff : Opens (fromBracket s) ↔ ∃ a, array? s = some a := by
  rw [opens_iff, ← Option.isSome_iff_exists, array?, ← fromBracket]
  refine ⟨fun h => h.2, fun h => ⟨?_, h⟩⟩
  rcases fromBracket_eq_nil_or s with hnil | hhead
  · rw [hnil] at h
    cases h
  · exact hhead

/-- The scan finds what the first bracket of a text opens, and nothing else. -/
theorem array?_eq_some_iff : array? s = some a ↔
    ∃ before after, s = before ++ (a ++ after) ∧ '[' ∉ before ∧ IsBracketed a := by
  constructor
  · intro h
    obtain ⟨b, after, hopened, hb⟩ := opens_fromBracket_iff.mpr ⟨a, h⟩
    rw [array?, ← fromBracket, hopened, hb.closeArray_eq] at h
    obtain rfl := Option.some.inj h
    obtain ⟨before, hs, hbefore⟩ := exists_fromBracket s
    exact ⟨before, after, hopened ▸ hs, hbefore, hb⟩
  · rintro ⟨before, after, rfl, hbefore, w, hw, rfl⟩
    rw [array?_prose hbefore]
    exact hw.isPassed.closeArray_brackets after

/-! ### The first bracketed part -/

/-- Of two texts that end a third one, one ends the other. -/
theorem IsFirstBracketed.unique {b : List Char} (ha : IsFirstBracketed s a)
    (hb : IsFirstBracketed s b) : a = b := by
  obtain ⟨before, after, rfl, hbracketed, hfirst⟩ := ha
  obtain ⟨left, right, hs, hbracketed', hfirst'⟩ := hb
  -- Each of the two places is behind the other.
  have hle : a ++ after <:+ b ++ right :=
    hfirst' _ (List.suffix_append _ _) ⟨a, after, rfl, hbracketed⟩
  have hge : b ++ right <:+ a ++ after :=
    hfirst _ (hs ▸ List.suffix_append _ _) ⟨b, right, rfl, hbracketed'⟩
  exact hbracketed.unique hbracketed' (hle.eq_of_length_le hge.length_le)

/-- If a bracketed part begins anywhere, one begins first. -/
theorem exists_isFirstBracketed {t : List Char} (ht : t <:+ s) (hopens : Opens t) :
    ∃ a, IsFirstBracketed s a := by
  induction s with
  | nil =>
    obtain rfl := List.suffix_nil.mp ht
    exact absurd (opens_iff.mp hopens).1 (by decide)
  | cons c s ih =>
    by_cases hhere : Opens (c :: s)
    · obtain ⟨a, after, hs, ha⟩ := hhere
      exact ⟨a, [], after, hs, ha, fun t ht _ => hs ▸ ht⟩
    · -- Nothing begins here, so what is first in the rest is first.
      have hrest : ∀ t, t <:+ c :: s → Opens t → t <:+ s := by
        intro t ht hopens
        rcases List.suffix_cons_iff.mp ht with rfl | ht
        · exact absurd hopens hhere
        · exact ht
      obtain ⟨a, before, after, rfl, ha, hfirst⟩ := ih (hrest t ht hopens)
      exact ⟨a, c :: before, after, rfl, ha,
        fun t ht hopens => hfirst t (hrest t ht hopens) hopens⟩

/-- What the scan finds begins before all else, for it begins at the first bracket. -/
theorem isFirstBracketed_of_array? (h : array? s = some a) : IsFirstBracketed s a := by
  obtain ⟨before, after, rfl, hbefore, ha⟩ := array?_eq_some_iff.mp h
  refine ⟨before, after, rfl, ha, fun t ht hopens => ?_⟩
  rcases List.suffix_or_suffix_of_suffix ht (List.suffix_append before (a ++ after)) with hle | hge
  · exact hle
  · -- A text that begins earlier would have to begin with a bracket.
    obtain ⟨later, rfl⟩ := hge
    cases later with
    | nil => exact List.suffix_rfl
    | cons c later =>
      obtain ⟨earlier, hs⟩ := ht
      obtain rfl : c = '[' := by simpa using (opens_iff.mp hopens).1
      have hsplit : before = earlier ++ '[' :: later :=
        (List.append_cancel_right (by simpa using hs)).symm
      exact absurd (by simp [hsplit]) hbefore

/-- **The scan finds the first bracketed part of a text** or nothing at all. It finds it exactly if
the first bracket of the text is where the part begins; and so it keeps the promise to find the
first one wherever there is one just on the texts whose first bracket is closed, and on those
without any bracketed part. -/
theorem array?_isFirstBracketed (s : List Char) :
    (∀ a, array? s = some a ↔ IsFirstBracketed s a ∧ Opens (fromBracket s)) ∧
      ((∃ a, IsFirstBracketed s a) ↔ ∃ t, t <:+ s ∧ Opens t) ∧
      ((∀ a, IsFirstBracketed s a → array? s = some a) ↔
        Opens (fromBracket s) ∨ ∀ t, t <:+ s → ¬ Opens t) := by
  have hfind : ∀ a, array? s = some a ↔ IsFirstBracketed s a ∧ Opens (fromBracket s) := by
    intro a
    refine ⟨fun h => ⟨isFirstBracketed_of_array? h, opens_fromBracket_iff.mpr ⟨a, h⟩⟩, ?_⟩
    rintro ⟨hfirst, hopens⟩
    obtain ⟨b, hb⟩ := opens_fromBracket_iff.mp hopens
    rw [hb, (isFirstBracketed_of_array? hb).unique hfirst]
  have hexists : (∃ a, IsFirstBracketed s a) ↔ ∃ t, t <:+ s ∧ Opens t := by
    constructor
    · rintro ⟨a, before, after, rfl, ha, -⟩
      exact ⟨a ++ after, List.suffix_append _ _, a, after, rfl, ha⟩
    · rintro ⟨t, ht, hopens⟩
      exact exists_isFirstBracketed ht hopens
  -- What the scan misses is an array behind a bracket that is never closed.
  refine ⟨hfind, hexists, fun hkept => ?_, ?_⟩
  · by_cases hsome : ∃ t, t <:+ s ∧ Opens t
    · obtain ⟨a, ha⟩ := hexists.mpr hsome
      exact .inl ((hfind a).mp (hkept a ha)).2
    · exact .inr fun t ht hopens => hsome ⟨t, ht, hopens⟩
  · rintro (hopens | hnone) a ha
    · exact (hfind a).mpr ⟨ha, hopens⟩
    · obtain ⟨t, ht, hopens⟩ := hexists.mp ⟨a, ha⟩
      exact absurd hopens (hnone t ht)

/-- A bracket that stays open hides the array of drafts behind it. -/
theorem array?_misses_bracketed :
    let prose := "Note [1: the steps are ".toList
    let array := "[\x7b\"title\":\"Entry\",\"file\":\"a.ts\"\x7d]".toList
    IsFirstBracketed (prose ++ array) array ∧ array? (prose ++ array) = none ∧
      drafts (prose ++ array) = [] ∧ drafts array = [{ title := "Entry", file := "a.ts" }] := by
  intro prose array
  have hfirst : ∀ t ∈ (prose ++ array).tails, Opens t → t <:+ array ++ [] := by decide +kernel
  exact ⟨⟨prose, [], by simp, by decide +kernel, fun t ht => hfirst t ((List.mem_tails _ _).mpr ht)⟩,
    by decide +kernel, by decide +kernel, by decide +kernel⟩

end GuidedTour.Answer
