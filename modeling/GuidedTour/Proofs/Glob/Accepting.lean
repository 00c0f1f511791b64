import GuidedTour.Proofs.Glob.Bytes

namespace GuidedTour.Glob

open scoped List

/-!
# What the parts of a pattern accept

Each part takes something off the start of the bytes and hands on the rest.

* `acceptsAll_literals`, `many_accepts_iff`, `foldersBefore_accepts_iff`, … — what a part takes;
* `Respelt` — bytes with others in place of some that need not stay;
* `acceptsAll_respelt` — they are accepted as well, if no literal of the pattern is one of those;
* `Pattern.floats` — a pattern that may begin at any folder. What it takes it takes below any folder
  (`Takes.below`), with or without a `./` in front (`takes_dotSlash_iff`).
-/

variable {w : List Char} {row : List Token} {k : List UInt8 → Bool} {bounded : Bool}
  {bs s t rest : List UInt8} {stays : UInt8 → Bool} {b : UInt8}

/-! ### Single parts -/

/-- What is left after given bytes is what stands behind them. -/
theorem afterBytes_eq_some_iff : afterBytes bs s = some rest ↔ s = bs ++ rest := by
  fun_induction afterBytes bs s with
  | case1 s => rw [Option.some.injEq, List.nil_append]
  | case2 b bs c s hbc ih =>
    obtain rfl : b = c := by simpa using hbc
    rw [ih, List.cons_append, List.cons.injEq, and_iff_right rfl]
  | case3 b bs c s hbc =>
    have hne : c ≠ b := fun h => hbc (by simp [h])
    simp [hne]
  | case4 b bs => simp

/-- A literal takes the bytes of its character. -/
theorem literal_accepts_iff (c : Char) :
    (Token.literal c).accepts bounded k s = true ↔
      ∃ rest, s = String.utf8EncodeChar c ++ rest ∧ k rest = true := by
  unfold Token.accepts
  simp only [Option.any_eq_true, afterBytes_eq_some_iff]

/-- Any number of bytes may be taken. -/
theorem afterMany_iff :
    afterMany (fun _ => true) k s = true ↔ ∃ rest, rest <:+ s ∧ k rest = true := by
  -- What is left is the whole, or what is left behind the first byte.
  induction s with
  | nil => simp [afterMany]
  | cons b s ih =>
    unfold afterMany
    simp only [Bool.or_eq_true, Bool.true_and, ih, List.suffix_cons_iff]
    constructor
    · rintro (hk | ⟨rest, hrest, hk⟩)
      · exact ⟨b :: s, .inl rfl, hk⟩
      · exact ⟨rest, .inr hrest, hk⟩
    · rintro ⟨rest, rfl | hrest, hk⟩
      · exact .inl hk
      · exact .inr ⟨rest, hrest, hk⟩

/-- A wildcard that passes slashes takes any number of bytes. -/
theorem many_accepts_iff :
    Token.many.accepts false k s = true ↔ ∃ rest, rest <:+ s ∧ k rest = true := by
  unfold Token.accepts
  exact afterMany_iff

/-- Bytes may be taken up to any slash. -/
theorem afterSomeSlash_iff :
    afterSomeSlash k s = true ↔ ∃ before rest, s = before ++ slash :: rest ∧ k rest = true := by
  induction s with
  | nil => simp [afterSomeSlash]
  | cons b s ih =>
    unfold afterSomeSlash
    simp only [Bool.or_eq_true, Bool.and_eq_true, beq_iff_eq, ih]
    constructor
    · rintro (⟨rfl, hk⟩ | ⟨before, rest, rfl, hk⟩)
      · exact ⟨[], s, rfl, hk⟩
      · exact ⟨b :: before, rest, rfl, hk⟩
    · rintro ⟨before, rest, hs, hk⟩
      -- The slash is the first byte, or stands behind it.
      cases before with
      | nil =>
        obtain ⟨rfl, rfl⟩ := List.cons.inj hs
        exact .inl ⟨rfl, hk⟩
      | cons c before =>
        obtain ⟨rfl, rfl⟩ := List.cons.inj hs
        exact .inr ⟨before, rest, rfl, hk⟩

/-- Folders at the start take nothing, or all up to some slash. -/
theorem foldersBefore_accepts_iff :
    Token.foldersBefore.accepts bounded k s = true ↔
      k s = true ∨ ∃ before rest, s = before ++ slash :: rest ∧ k rest = true := by
  unfold Token.accepts
  rw [Bool.or_eq_true, afterSomeSlash_iff]

/-- What is below a folder takes its slash and any number of bytes. -/
theorem inside_accepts_iff :
    Token.inside.accepts bounded k s = true ↔
      ∃ below rest, s = slash :: below ∧ rest <:+ below ∧ k rest = true := by
  unfold Token.accepts
  cases s with
  | nil => simp
  | cons b s => simp [afterMany_iff, and_assoc]

/-- Folders in the middle take one slash, or all from one slash up to another. -/
theorem foldersBetween_accepts_iff :
    Token.foldersBetween.accepts bounded k s = true ↔
      ∃ below, s = slash :: below ∧
        (k below = true ∨ ∃ before rest, below = before ++ slash :: rest ∧ k rest = true) := by
  unfold Token.accepts
  cases s with
  | nil => simp
  | cons b s => simp [afterSomeSlash_iff]

/-! ### Rows of literals -/

/-- The parts that stand for the characters themselves. -/
def literals (w : List Char) : List Token := w.map .literal

/-- A row of literals takes the bytes of what they spell. -/
theorem acceptsAll_literals :
    acceptsAll bounded (literals w ++ row) k s = true ↔
      ∃ rest, s = encode w ++ rest ∧ acceptsAll bounded row k rest = true := by
  -- The first literal takes its character, and the others take what they spell of the rest.
  induction w generalizing s with
  | nil => simp [literals]
  | cons c w ih =>
    show Token.accepts bounded (.literal c) (acceptsAll bounded (literals w ++ row) k) s = true ↔ _
    simp only [literal_accepts_iff, ih, encode_cons, List.append_assoc]
    constructor
    · rintro ⟨_, rfl, rest, rfl, hk⟩
      exact ⟨rest, rfl, hk⟩
    · rintro ⟨rest, rfl, hk⟩
      exact ⟨_, rfl, rest, rfl, hk⟩

/-- A row of literals matches what they spell. -/
theorem acceptsAll_literals_isEmpty :
    acceptsAll bounded (literals w) List.isEmpty s = true ↔ s = encode w := by
  have hrow : acceptsAll bounded (literals w ++ []) List.isEmpty s = true ↔
      ∃ rest, s = encode w ++ rest ∧ acceptsAll bounded [] List.isEmpty rest = true :=
    acceptsAll_literals
  rw [List.append_nil] at hrow
  rw [hrow]
  constructor
  · rintro ⟨rest, rfl, hrest⟩
    rw [acceptsAll, List.isEmpty_iff] at hrest
    rw [hrest, List.append_nil]
  · rintro rfl
    exact ⟨[], by simp, rfl⟩

theorem acceptsSome_iff {rows : List (List Token)} :
    acceptsSome bounded rows k s = true ↔
      ∃ row ∈ rows, isVoidRow row = false ∧ acceptsAll bounded row k s = true := by
  induction rows with
  | nil => simp [acceptsSome]
  | cons row rows ih => simp [acceptsSome, ih]

/-- A row of literals is void only if there is none. -/
theorem isVoidRow_literals (hw : w ≠ []) : isVoidRow (literals w) = false := by
  obtain ⟨c, w, rfl⟩ := List.exists_cons_of_ne_nil hw
  rfl

/-- Of branches of literals each one counts, as long as none of them is empty. -/
theorem branches_accepts_iff {ws : List (List Char)} (hws : ∀ w ∈ ws, w ≠ []) (hne : ws ≠ []) :
    (Token.branches (ws.map literals)).accepts bounded List.isEmpty s = true ↔
      ∃ w ∈ ws, s = encode w := by
  -- The branches are not all void, so none that accepts is passed over.
  have hvoid : areVoid (ws.map literals) = false := by
    obtain ⟨w, ws, rfl⟩ := List.exists_cons_of_ne_nil hne
    rw [List.map_cons, areVoid, isVoidRow_literals (hws w List.mem_cons_self), Bool.false_and]
  unfold Token.accepts
  rw [hvoid, if_neg Bool.false_ne_true, acceptsSome_iff]
  constructor
  · rintro ⟨row, hrow, -, hs⟩
    obtain ⟨w, hw, rfl⟩ := List.mem_map.mp hrow
    exact ⟨w, hw, acceptsAll_literals_isEmpty.mp hs⟩
  · rintro ⟨w, hw, hs⟩
    exact ⟨literals w, List.mem_map_of_mem hw, isVoidRow_literals (hws w hw),
      acceptsAll_literals_isEmpty.mpr hs⟩

/-! ### Bytes that may be others -/

/-- The first bytes with others, any number of them, in place of some of those that need not stay.
-/
inductive Respelt (stays : UInt8 → Bool) : List UInt8 → List UInt8 → Prop
  | nil : Respelt stays [] []
  | keep (b : UInt8) {s t : List UInt8} (h : Respelt stays s t) :
      Respelt stays (b :: s) (b :: t)
  | change {b : UInt8} (hb : stays b = false) (u : List UInt8) {s t : List UInt8}
      (h : Respelt stays s t) : Respelt stays (b :: s) (u ++ t)

namespace Respelt

/-- In place of several bytes may stand any others. -/
theorem changeAll (hbs : ∀ b ∈ bs, stays b = false) (hne : bs ≠ []) (u : List UInt8)
    (h : Respelt stays s t) : Respelt stays (bs ++ s) (u ++ t) := by
  induction bs generalizing u with
  | nil => exact absurd rfl hne
  | cons b bs ih =>
    obtain ⟨hb, hbs⟩ := List.forall_mem_cons.mp hbs
    refine .change hb u ?_
    by_cases hnil : bs = []
    · rwa [hnil]
    · -- the first byte has taken over everything
      exact ih hbs hnil []

/-- The end of the bytes becomes the end of the others. -/
theorem of_suffix (h : Respelt stays s t) (hrest : rest <:+ s) :
    ∃ rest', rest' <:+ t ∧ Respelt stays rest rest' := by
  induction h with
  | nil =>
    rw [List.suffix_nil.mp hrest]
    exact ⟨[], List.suffix_rfl, .nil⟩
  | keep b h ih =>
    rcases List.suffix_cons_iff.mp hrest with rfl | hrest
    · exact ⟨_, List.suffix_rfl, .keep b h⟩
    · obtain ⟨rest', hrest', h'⟩ := ih hrest
      exact ⟨rest', hrest'.trans (List.suffix_cons b _), h'⟩
  -- The byte in front, or what stands in its place, is dropped with what is before the end.
  | change hb u h ih =>
    rcases List.suffix_cons_iff.mp hrest with rfl | hrest
    · exact ⟨_, List.suffix_rfl, .change hb u h⟩
    · obtain ⟨rest', hrest', h'⟩ := ih hrest
      exact ⟨rest', hrest'.trans (List.suffix_append u _), h'⟩

/-- A first byte that stays is the first byte again. -/
theorem of_cons (hb : stays b = true) (h : Respelt stays (b :: s) t) :
    ∃ t', t = b :: t' ∧ Respelt stays s t' := by
  cases h with
  | keep _ h => exact ⟨_, rfl, h⟩
  | change hchange u h =>
    rw [hb] at hchange
    cases hchange

/-- First bytes that stay are the first bytes again. -/
theorem of_append (hbs : ∀ b ∈ bs, stays b = true) (h : Respelt stays (bs ++ s) t) :
    ∃ t', t = bs ++ t' ∧ Respelt stays s t' := by
  induction bs generalizing t with
  | nil => exact ⟨t, rfl, h⟩
  | cons b bs ih =>
    obtain ⟨hb, hbs⟩ := List.forall_mem_cons.mp hbs
    obtain ⟨t', rfl, h'⟩ := of_cons hb h
    obtain ⟨t'', rfl, h''⟩ := ih hbs h'
    exact ⟨t'', rfl, h''⟩

/-- A byte that stays still stands before what follows it. -/
theorem of_middle (hb : stays b = true) {before : List UInt8}
    (h : Respelt stays (before ++ b :: s) t) :
    ∃ before' t', t = before' ++ b :: t' ∧ Respelt stays s t' := by
  obtain ⟨rest', ⟨before', rfl⟩, h'⟩ := h.of_suffix (List.suffix_append before _)
  obtain ⟨t', rfl, h''⟩ := of_cons hb h'
  exact ⟨before', t', rfl, h''⟩

end Respelt

/-- A part that sees no bytes but those that stay. -/
def Token.isBlind (stays : UInt8 → Bool) : Token → Bool
  | .literal c => (String.utf8EncodeChar c).all stays
  | .many | .foldersBefore | .inside | .foldersBetween => true
  | .any | .oneOf _ _ | .branches _ => false

section

variable (hslash : stays slash = true)
include hslash

/-- What is behind a slash, or everything, is behind a slash again, or everything. -/
theorem Respelt.folders (hk : ∀ s t, Respelt stays s t → k s = true → k t = true)
    (h : Respelt stays s t)
    (hs : k s = true ∨ ∃ before rest, s = before ++ slash :: rest ∧ k rest = true) :
    k t = true ∨ ∃ before rest, t = before ++ slash :: rest ∧ k rest = true := by
  rcases hs with hs | ⟨before, rest, rfl, hrest⟩
  · exact .inl (hk _ _ h hs)
  · obtain ⟨before', rest', rfl, h'⟩ := h.of_middle hslash
    exact .inr ⟨before', rest', rfl, hk _ _ h' hrest⟩

/-- A part that sees no bytes but those that stay accepts the others too, if what comes after it
does. -/
theorem accepts_respelt {token : Token} (htoken : token.isBlind stays = true)
    (hk : ∀ s t, Respelt stays s t → k s = true → k t = true) (h : Respelt stays s t)
    (hs : token.accepts false k s = true) : token.accepts false k t = true := by
  -- One case for each kind of part; the last three see bytes that need not stay.
  cases token with
  | literal c =>
    obtain ⟨rest, rfl, hrest⟩ := (literal_accepts_iff c).mp hs
    obtain ⟨t', rfl, h'⟩ := h.of_append (List.all_eq_true.mp htoken)
    exact (literal_accepts_iff c).mpr ⟨t', rfl, hk _ _ h' hrest⟩
  | many =>
    obtain ⟨rest, hsuffix, hrest⟩ := many_accepts_iff.mp hs
    obtain ⟨rest', hsuffix', h'⟩ := h.of_suffix hsuffix
    exact many_accepts_iff.mpr ⟨rest', hsuffix', hk _ _ h' hrest⟩
  | foldersBefore =>
    exact foldersBefore_accepts_iff.mpr
      (Respelt.folders hslash hk h (foldersBefore_accepts_iff.mp hs))
  | inside =>
    obtain ⟨below, rest, rfl, hsuffix, hrest⟩ := inside_accepts_iff.mp hs
    obtain ⟨below', rfl, h'⟩ := h.of_cons hslash
    obtain ⟨rest', hsuffix', h''⟩ := h'.of_suffix hsuffix
    exact inside_accepts_iff.mpr ⟨below', rest', rfl, hsuffix', hk _ _ h'' hrest⟩
  | foldersBetween =>
    obtain ⟨below, rfl, hbelow⟩ := foldersBetween_accepts_iff.mp hs
    obtain ⟨below', rfl, h'⟩ := h.of_cons hslash
    exact foldersBetween_accepts_iff.mpr ⟨below', rfl, Respelt.folders hslash hk h' hbelow⟩
  | any => cases htoken
  | oneOf negated ranges => cases htoken
  | branches rows => cases htoken

/-- What a row accepts it accepts with other bytes in place of those that it does not see. -/
theorem acceptsAll_respelt (hrow : row.all (·.isBlind stays) = true)
    (hk : ∀ s t, Respelt stays s t → k s = true → k t = true) (h : Respelt stays s t)
    (hs : acceptsAll false row k s = true) : acceptsAll false row k t = true := by
  induction row generalizing s t with
  | nil => exact hk s t h hs
  | cons token row ih =>
    rw [List.all_cons, Bool.and_eq_true] at hrow
    exact accepts_respelt hslash hrow.1 (fun s t => ih hrow.2) h hs

end

/-! ### Patterns that may begin at any folder -/

/-- Whether a pattern matches some bytes. -/
def Pattern.Takes (p : Pattern) (s : List UInt8) : Prop :=
  acceptsAll p.bounded p.tokens List.isEmpty s = true

/-- Whether a row cannot begin within a `./`: it begins with two literals, and a wildcard in front
of them at most, that do not fit there. -/
def skipsDotSlash : List Token → Bool
  | .many :: .literal c :: .literal d :: _ => c != '/' && (c != '.' || d != '/')
  | .literal c :: .literal d :: _ => c != '.' || d != '/'
  | _ => false

/-- Whether a pattern begins with any folders, and goes on with parts that see no bytes but those
that stay and that cannot begin within a `./`. -/
def Pattern.floats (stays : UInt8 → Bool) (p : Pattern) : Bool :=
  match p.tokens with
  | .foldersBefore :: row => !p.bounded && row.all (·.isBlind stays) && skipsDotSlash row
  | _ => false

/-- A row that cannot begin within a `./` begins behind it, if it begins there. -/
theorem acceptsAll_of_dotSlash (hrow : skipsDotSlash row = true)
    (h : acceptsAll false row k (encode ['.', '/'] ++ s) = true) :
    acceptsAll false row k s = true := by
  have hdot : ∀ {c : Char} {u v : List UInt8},
      String.utf8EncodeChar '.' ++ u = String.utf8EncodeChar c ++ v → c = '.' ∧ v = u :=
    fun h => encodeChar_append_inj (by decide) h.symm
  have hslash : ∀ {c : Char} {u v : List UInt8},
      String.utf8EncodeChar '/' ++ u = String.utf8EncodeChar c ++ v → c = '/' ∧ v = u :=
    fun h => encodeChar_append_inj (by decide) h.symm
  unfold skipsDotSlash at hrow
  split at hrow
  · next c d row =>
    -- the wildcard takes both characters, or the literals would have to fit to them
    obtain ⟨rest, hrest, hk⟩ := many_accepts_iff.mp h
    obtain ⟨u, hu, hd⟩ := (literal_accepts_iff c).mp hk
    obtain ⟨v, hv, -⟩ := (literal_accepts_iff d).mp hd
    rcases List.suffix_cons_iff.mp hrest with rfl | hrest
    · obtain ⟨rfl, rfl⟩ := hdot hu
      obtain ⟨rfl, rfl⟩ := hslash hv
      cases hrow
    · rcases List.suffix_cons_iff.mp hrest with rfl | hrest
      · obtain ⟨rfl, rfl⟩ := hslash hu
        cases hrow
      · exact many_accepts_iff.mpr ⟨rest, hrest, hk⟩
  · next c d row =>
    obtain ⟨u, hu, hd⟩ := (literal_accepts_iff c).mp h
    obtain ⟨v, hv, -⟩ := (literal_accepts_iff d).mp hd
    obtain ⟨rfl, rfl⟩ := hdot hu
    obtain ⟨rfl, rfl⟩ := hslash hv
    cases hrow
  · cases hrow

namespace Pattern

variable {p : Pattern}

/-- What it means to float: the pattern takes what its row takes, at the start or behind a slash. -/
theorem exists_row (hp : p.floats stays = true) :
    ∃ row, p = ⟨.foldersBefore :: row, false⟩ ∧ row.all (·.isBlind stays) = true ∧
      skipsDotSlash row = true := by
  obtain ⟨tokens, bounded⟩ := p
  unfold floats at hp
  split at hp
  · next row htokens =>
    simp only [Bool.and_eq_true, Bool.not_eq_true'] at hp htokens
    obtain ⟨⟨rfl, hblind⟩, hskips⟩ := hp
    exact ⟨row, by rw [htokens], hblind, hskips⟩
  · cases hp

theorem takes_iff : (⟨.foldersBefore :: row, false⟩ : Pattern).Takes s ↔
    acceptsAll false row List.isEmpty s = true ∨
      ∃ before rest, s = before ++ slash :: rest ∧ acceptsAll false row List.isEmpty rest = true :=
  foldersBefore_accepts_iff

/-- A floating pattern matches the paths whose bytes it takes. -/
theorem isMatch_iff_takes (hp : p.floats stays = true) (path : String) :
    p.isMatch path = true ↔ p.Takes (encode path.toList) := by
  obtain ⟨row, rfl, -, hskips⟩ := exists_row hp
  rw [← bytesOf_eq]
  unfold isMatch
  split
  · next hnil =>
    -- two stars alone are not such a pattern
    obtain rfl : row = [] := by simpa using hnil
    cases hskips
  · rfl

/-- What is taken is taken with other bytes in place of those that need not stay. -/
theorem Takes.respelt (h : p.Takes s) (hp : p.floats stays = true) (hslash : stays slash = true)
    (hst : Respelt stays s t) : p.Takes t := by
  obtain ⟨row, rfl, hblind, -⟩ := exists_row hp
  -- The pattern ends where there are no bytes, and in place of none there are none.
  have hempty : ∀ s t, Respelt stays s t → s.isEmpty = true → t.isEmpty = true := by
    intro s t hst hs
    rw [List.isEmpty_iff] at hs
    subst hs
    cases hst
    rfl
  have hrow : (Token.foldersBefore :: row).all (·.isBlind stays) = true := by
    rw [List.all_cons, hblind]
    rfl
  exact acceptsAll_respelt hslash hrow hempty hst h

/-- What is taken is taken below any folder. -/
theorem Takes.below (h : p.Takes s) (hp : p.floats stays = true) (before : List UInt8) :
    p.Takes (before ++ slash :: s) := by
  obtain ⟨row, rfl, -, -⟩ := exists_row hp
  rw [takes_iff] at h ⊢
  rcases h with h | ⟨more, rest, rfl, h⟩
  · exact .inr ⟨before, s, rfl, h⟩
  · exact .inr ⟨before ++ slash :: more, rest, by simp, h⟩

/-- What is taken behind a `./` is taken without it. -/
theorem Takes.of_dotSlash (h : p.Takes (encode ['.', '/'] ++ s)) (hp : p.floats stays = true) :
    p.Takes s := by
  obtain ⟨row, rfl, -, hskips⟩ := exists_row hp
  rw [takes_iff] at h ⊢
  rcases h with h | ⟨before, rest, hs, h⟩
  · exact .inl (acceptsAll_of_dotSlash hskips h)
  · -- the slash of the `./` is the first one
    cases before with
    | nil => cases hs
    | cons b before =>
      obtain ⟨-, hs⟩ := List.cons.inj hs
      cases before with
      | nil =>
        obtain ⟨-, rfl⟩ := List.cons.inj hs
        exact .inl h
      | cons c before =>
        obtain ⟨-, rfl⟩ := List.cons.inj hs
        exact .inr ⟨before, rest, rfl, h⟩

/-- A floating pattern does not see a `./` at the start. -/
theorem takes_dotSlash_iff (hp : p.floats stays = true) (w : List Char) :
    p.Takes (encode ('.' :: '/' :: w)) ↔ p.Takes (encode w) :=
  -- A `./` in front is a folder with the name of one point.
  ⟨fun h => h.of_dotSlash hp, fun h => h.below hp [46]⟩

end Pattern

end GuidedTour.Glob
