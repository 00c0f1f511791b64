import GuidedTour.Outline.LinePattern
import GuidedTour.Proofs.Trim

namespace GuidedTour

/-!
# What the line of a class looks like

The pattern of class lines as a grammar, apart from the functions that look for it.

* `SpellsModifier`, `SpellsModifiers` — modifiers, each with the blanks behind it;
* `afterModifier_eq_some_iff`, `exists_modifiers`, `afterModifiers_append` — one modifier is
  skipped, or all of them;
* `MatchesClass` — lines with the pattern of a class; `classLine?_eq_some_iff` says that these are
  the lines that declare one.
-/

/-! ### The grammar -/

/-- Blanks in a row, of which there may be none. -/
def IsBlanks (s : List Char) : Prop := ∀ c ∈ s, Text.isBlank c = true

/-- At least one blank. -/
def IsSpacing (s : List Char) : Prop := s ≠ [] ∧ IsBlanks s

/-- The scope of a modifier, which may be missing. Only the word `pub` carries one. -/
inductive SpellsScope (word : String) : List Char → Prop
  | absent : SpellsScope word []
  | present {inner : List Char} (hword : word = "pub") (hinner : ')' ∉ inner) :
      SpellsScope word ('(' :: (inner ++ [')']))

/-- A modifier with the blanks behind it. -/
inductive SpellsModifier (words : List String) : List Char → Prop
  | intro {word : String} {scope spacing : List Char} (hword : word ∈ words)
      (hscope : SpellsScope word scope) (hspacing : IsSpacing spacing) :
      SpellsModifier words (word.toList ++ (scope ++ spacing))

/-- Modifiers in a row, of which there may be none. -/
inductive SpellsModifiers (words : List String) : List Char → Prop
  | nil : SpellsModifiers words []
  | cons {m rest : List Char} (hfirst : SpellsModifier words m)
      (hrest : SpellsModifiers words rest) : SpellsModifiers words (m ++ rest)

/-- A name. -/
inductive IsName : List Char → Prop
  | intro {c : Char} {s : List Char} (hstart : Text.isNameStart c = true)
      (hrest : ∀ d ∈ s, Text.isNameChar d = true) : IsName (c :: s)

/-- A text that a name in front of it does not run into. -/
def EndsName (s : List Char) : Prop := ∀ c ∈ s.head?, Text.isNameChar c = false

/-- A line with the pattern of a class, and the name in it. -/
inductive MatchesClass : List Char → List Char → Prop
  | intro {indent modifiers spacing name rest : List Char} {word : String}
      (hindent : IsBlanks indent) (hmodifiers : SpellsModifiers classModifiers modifiers)
      (hword : word ∈ classWords) (hspacing : IsSpacing spacing) (hname : IsName name)
      (hrest : EndsName rest) :
      MatchesClass (indent ++ (modifiers ++ (word.toList ++ (spacing ++ (name ++ rest))))) name

/-- A text that does not begin with a blank. -/
def StartsSolid (s : List Char) : Prop := ∀ c ∈ s.head?, Text.isBlank c = false

variable {s rest m name line scope spacing : List Char} {word : String} {words : List String}

/-! ### Characters -/

/-- The code points of the blanks. -/
def blankCodes : List Nat :=
  [9, 10, 11, 12, 13, 32, 133, 160, 5760, 8192, 8193, 8194, 8195, 8196, 8197, 8198, 8199, 8200,
    8201, 8202, 8232, 8233, 8239, 8287, 12288]

/-- There are no other blanks. -/
theorem toNat_mem_blankCodes {c : Char} (h : Text.isBlank c = true) : c.toNat ∈ blankCodes := by
  simp only [Text.isBlank, Bool.or_eq_true, Bool.and_eq_true, decide_eq_true_eq, beq_iff_eq] at h
  simp only [blankCodes, List.mem_cons, List.not_mem_nil, or_false]
  omega

/-- No blank is part of a name. -/
theorem not_name_of_isBlank {c : Char} (h : Text.isBlank c = true) :
    Text.isNameStart c = false ∧ Text.isNameChar c = false ∧ c.isAlpha = false := by
  -- There are few blanks, and each one is looked at.
  have hall : ∀ n ∈ blankCodes, Text.isNameStart (Char.ofNat n) = false ∧
      Text.isNameChar (Char.ofNat n) = false ∧ (Char.ofNat n).isAlpha = false := by
    decide +kernel
  have hc := hall _ (toNat_mem_blankCodes h)
  rwa [Char.ofNat_toNat] at hc

/-- What begins a name is no blank. -/
theorem isBlank_of_isNameStart {c : Char} (h : Text.isNameStart c = true) :
    Text.isBlank c = false := by
  cases hblank : Text.isBlank c with
  | false => rfl
  | true =>
    rw [(not_name_of_isBlank hblank).1] at h
    cases h

theorem isBlank_of_isAlpha {c : Char} (h : c.isAlpha = true) : Text.isBlank c = false :=
  isBlank_of_isNameStart (by simp [Text.isNameStart, h])

/-! ### Blanks and words at the start -/

/-- A line begins with its indentation. -/
theorem exists_indent (line : List Char) : ∃ indent, IsBlanks indent ∧
    line = indent ++ Text.trimStart line ∧ StartsSolid (Text.trimStart line) := by
  refine ⟨line.takeWhile Text.isBlank, fun c => List.mem_takeWhile_imp,
    List.takeWhile_append_dropWhile.symm, fun c hc => ?_⟩
  have hfirst := List.head?_dropWhile_not Text.isBlank line
  rw [← Text.trimStart, Option.mem_def.mp hc] at hfirst
  exact hfirst

/-- Blanks are dropped up to a text that begins with none. -/
theorem trimStart_append (hblanks : IsBlanks s) (hrest : StartsSolid rest) :
    Text.trimStart (s ++ rest) = rest :=
  Text.dropWhile_append_eq hblanks hrest

/-- One blank is asked for, and all that follow it are dropped. -/
theorem afterBlanks_eq_some_iff : afterBlanks s = some rest ↔
    ∃ spacing, IsSpacing spacing ∧ StartsSolid rest ∧ s = spacing ++ rest := by
  constructor
  · intro h
    cases s with
    | nil => cases h
    | cons c s =>
      rw [afterBlanks] at h
      split at h
      · rename_i hc
        obtain rfl := Option.some.inj h
        obtain ⟨indent, hindent, hs, hsolid⟩ := exists_indent s
        refine ⟨c :: indent, ⟨List.cons_ne_nil c indent, ?_⟩, hsolid, congrArg (c :: ·) hs⟩
        rintro d (_ | ⟨_, hd⟩)
        · exact hc
        · exact hindent d hd
      · cases h
  · rintro ⟨spacing, ⟨hne, hblanks⟩, hsolid, rfl⟩
    obtain ⟨c, spacing, rfl⟩ := List.exists_cons_of_ne_nil hne
    have hrest : IsBlanks spacing := fun d hd => hblanks d (List.mem_cons_of_mem c hd)
    rw [List.cons_append, afterBlanks, if_pos (hblanks c List.mem_cons_self),
      trimStart_append hrest hsolid]

/-- What is left after a word is what stands behind it. -/
theorem afterPrefix_eq_some_iff : afterPrefix word s = some rest ↔ s = word.toList ++ rest := by
  rw [afterPrefix]
  constructor
  · intro h
    split at h
    · rename_i hprefix
      obtain ⟨t, rfl⟩ := List.isPrefixOf_iff_prefix.mp hprefix
      obtain rfl := Option.some.inj h
      rw [← String.length_toList, List.drop_left]
    · cases h
  · rintro rfl
    have hprefix : word.toList.isPrefixOf (word.toList ++ rest) = true :=
      List.isPrefixOf_iff_prefix.mpr (List.prefix_append _ _)
    rw [if_pos hprefix, ← String.length_toList, List.drop_left]

/-! ### Modifiers -/

/-- A text up to the first closing bracket, and the rest of it. -/
theorem dropWhile_eq_cons_iff {close : Char} :
    s.dropWhile (· != close) = close :: rest ↔
      ∃ inner, close ∉ inner ∧ s = inner ++ close :: rest := by
  constructor
  · intro hdrop
    refine ⟨s.takeWhile (· != close), fun hmem => ?_, ?_⟩
    · simpa using List.mem_takeWhile_imp hmem
    · rw [← hdrop, List.takeWhile_append_dropWhile]
  · rintro ⟨inner, hinner, rfl⟩
    have hpass : ∀ c ∈ inner, (c != close) = true := fun c hc => by
      simpa using ne_of_mem_of_not_mem hc hinner
    exact Text.dropWhile_append_eq hpass (by simp)

/-- The text after the scope of a word. -/
def afterScopeOf (word : String) (s : List Char) : List Char :=
  if word == "pub" then afterScope s else s

/-- What is skipped after a word is its scope, which may be missing. -/
theorem exists_scope (word : String) (s : List Char) :
    ∃ scope, SpellsScope word scope ∧ s = scope ++ afterScopeOf word s := by
  rw [afterScopeOf]
  -- Only an opening bracket that is closed again begins a scope.
  split
  · rename_i hword
    unfold afterScope
    split
    · rename_i t
      split
      · rename_i rest hclose
        obtain ⟨inner, hinner, rfl⟩ := dropWhile_eq_cons_iff.mp hclose
        exact ⟨_, .present (by simpa using hword) hinner, by simp⟩
      · exact ⟨[], .absent, rfl⟩
    · exact ⟨[], .absent, rfl⟩
  · exact ⟨[], .absent, rfl⟩

/-- A scope is skipped, and nothing more. -/
theorem afterScopeOf_append (hscope : SpellsScope word scope) (hrest : rest.head? ≠ some '(') :
    afterScopeOf word (scope ++ rest) = rest := by
  cases hscope with
  | absent =>
    rw [List.nil_append, afterScopeOf]
    split
    · unfold afterScope
      split
      · exact absurd rfl hrest
      · rfl
    · rfl
  | @present inner hword hinner =>
    have hclose : (inner ++ ')' :: rest).dropWhile (· != ')') = ')' :: rest :=
      dropWhile_eq_cons_iff.mpr ⟨inner, hinner, rfl⟩
    simp [afterScopeOf, hword, afterScope, hclose]

/-- Words of letters alone. -/
def AreLetters (words : List String) : Prop :=
  ∀ word ∈ words, word.toList ≠ [] ∧ ∀ c ∈ word.toList, c.isAlpha = true

instance (words : List String) : Decidable (AreLetters words) :=
  decidable_of_iff (words.all fun word => !word.toList.isEmpty && word.toList.all Char.isAlpha) <| by
    simp [AreLetters]

/-- The text after one word, its scope and the blanks behind it. -/
def afterWord (s : List Char) (word : String) : Option (List Char) :=
  (afterPrefix word s).bind fun rest => afterBlanks (afterScopeOf word rest)

theorem afterModifier_eq_findSome? (words : List String) (s : List Char) :
    afterModifier words s = words.findSome? (afterWord s) := rfl

/-- What begins with blanks begins with a blank. -/
theorem IsSpacing.head_append (h : IsSpacing spacing) (s : List Char) :
    ∃ c, (spacing ++ s).head? = some c ∧ Text.isBlank c = true := by
  obtain ⟨c, t, rfl⟩ := List.exists_cons_of_ne_nil h.1
  exact ⟨c, rfl, h.2 c List.mem_cons_self⟩

/-- A word is skipped with its scope and all blanks behind it, of which there has to be one. -/
theorem afterWord_eq_some_iff : afterWord s word = some rest ↔ ∃ scope spacing,
    SpellsScope word scope ∧ IsSpacing spacing ∧ StartsSolid rest ∧
      s = word.toList ++ (scope ++ (spacing ++ rest)) := by
  rw [afterWord, Option.bind_eq_some_iff]
  constructor
  · rintro ⟨t, hprefix, hblanks⟩
    obtain ⟨scope, hscope, ht⟩ := exists_scope word t
    obtain ⟨spacing, hspacing, hsolid, hrest⟩ := afterBlanks_eq_some_iff.mp hblanks
    refine ⟨scope, spacing, hscope, hspacing, hsolid, ?_⟩
    rw [← hrest, ← ht]
    exact afterPrefix_eq_some_iff.mp hprefix
  · rintro ⟨scope, spacing, hscope, hspacing, hsolid, hs⟩
    refine ⟨_, afterPrefix_eq_some_iff.mpr hs, ?_⟩
    rw [afterScopeOf_append hscope]
    · exact afterBlanks_eq_some_iff.mpr ⟨spacing, hspacing, hsolid, rfl⟩
    · obtain ⟨c, hhead, hc⟩ := hspacing.head_append rest
      rw [hhead]
      rintro ⟨⟩
      exact absurd hc (by decide)

/-- A word of letters ends where its scope or the blanks behind it begin. -/
theorem takeWhile_isAlpha (hletters : ∀ c ∈ word.toList, c.isAlpha = true)
    (hscope : SpellsScope word scope) (hspacing : IsSpacing spacing) (rest : List Char) :
    (word.toList ++ (scope ++ (spacing ++ rest))).takeWhile Char.isAlpha = word.toList := by
  -- Neither the bracket of a scope nor a blank is a letter.
  have hstop : (scope ++ (spacing ++ rest)).takeWhile Char.isAlpha = [] := by
    cases hscope with
    | present => rfl
    | absent =>
      obtain ⟨c, t, rfl⟩ := List.exists_cons_of_ne_nil hspacing.1
      have hc := (not_name_of_isBlank (hspacing.2 c List.mem_cons_self)).2.2
      simp [hc]
  rw [List.takeWhile_append_of_pos hletters, hstop, List.append_nil]

/-- At most one word fits. -/
theorem afterWord_unique {word' : String} {rest' : List Char} (hletters : AreLetters words)
    (hword : word ∈ words) (hword' : word' ∈ words) (h : afterWord s word = some rest)
    (h' : afterWord s word' = some rest') : word = word' := by
  obtain ⟨scope, spacing, hscope, hspacing, -, hs⟩ := afterWord_eq_some_iff.mp h
  obtain ⟨scope', spacing', hscope', hspacing', -, hs'⟩ := afterWord_eq_some_iff.mp h'
  have htake := takeWhile_isAlpha (hletters word hword).2 hscope hspacing rest
  have htake' := takeWhile_isAlpha (hletters word' hword').2 hscope' hspacing' rest'
  rw [← hs] at htake
  rw [← hs'] at htake'
  exact String.toList_injective (htake.symm.trans htake')

/-- What is skipped is the one modifier that the text begins with, with all blanks behind it. -/
theorem afterModifier_eq_some_iff (hletters : AreLetters words) :
    afterModifier words s = some rest ↔
      ∃ m, SpellsModifier words m ∧ StartsSolid rest ∧ s = m ++ rest := by
  rw [afterModifier_eq_findSome?]
  constructor
  · intro h
    obtain ⟨word, hword, hafter⟩ := List.exists_of_findSome?_eq_some h
    obtain ⟨scope, spacing, hscope, hspacing, hsolid, rfl⟩ := afterWord_eq_some_iff.mp hafter
    exact ⟨_, .intro hword hscope hspacing, hsolid, by simp only [List.append_assoc]⟩
  · rintro ⟨_, ⟨hword, hscope, hspacing⟩, hsolid, rfl⟩
    rename_i word scope spacing
    have hafter : afterWord (word.toList ++ (scope ++ spacing) ++ rest) word = some rest :=
      afterWord_eq_some_iff.mpr
        ⟨scope, spacing, hscope, hspacing, hsolid, by simp only [List.append_assoc]⟩
    cases hfound : words.findSome? (afterWord (word.toList ++ (scope ++ spacing) ++ rest)) with
    | none =>
      rw [List.findSome?_eq_none_iff.mp hfound word hword] at hafter
      cases hafter
    | some rest' =>
      -- A word that comes before it in the list would be the same word.
      obtain ⟨word', hword', hafter'⟩ := List.exists_of_findSome?_eq_some hfound
      obtain rfl := afterWord_unique hletters hword hword' hafter hafter'
      exact hafter'.symm.trans hafter

/-- A text begins with a modifier in one way at most. -/
theorem SpellsModifier.eq_of_append_eq {m' rest' : List Char} (hletters : AreLetters words)
    (h : SpellsModifier words m) (h' : SpellsModifier words m') (hsolid : StartsSolid rest)
    (hsolid' : StartsSolid rest') (heq : m ++ rest = m' ++ rest') : m = m' ∧ rest = rest' := by
  have hafter := (afterModifier_eq_some_iff hletters).mpr ⟨m, h, hsolid, rfl⟩
  have hafter' := (afterModifier_eq_some_iff hletters).mpr ⟨m', h', hsolid', heq⟩
  obtain rfl := Option.some.inj (hafter.symm.trans hafter')
  exact ⟨List.append_cancel_right heq, rfl⟩

/-- A modifier begins with a letter. -/
theorem SpellsModifier.exists_letter (hletters : AreLetters words) (h : SpellsModifier words m) :
    ∃ c t, m = c :: t ∧ c.isAlpha = true := by
  obtain ⟨hword, -, -⟩ := h
  obtain ⟨hne, hall⟩ := hletters _ hword
  obtain ⟨c, t, hct⟩ := List.exists_cons_of_ne_nil hne
  exact ⟨c, _, by rw [hct]; rfl, hall c (by rw [hct]; exact List.mem_cons_self)⟩

/-- Modifiers do not begin with a blank. -/
theorem SpellsModifiers.startsSolid_append (hletters : AreLetters words)
    (h : SpellsModifiers words m) (hrest : StartsSolid rest) : StartsSolid (m ++ rest) := by
  cases h with
  | nil => exact hrest
  | cons hfirst hmore =>
    obtain ⟨c, t, rfl, hc⟩ := hfirst.exists_letter hletters
    intro d hd
    obtain rfl := Option.some.inj hd
    exact isBlank_of_isAlpha hc

/-- What is skipped are modifiers. -/
theorem exists_modifiers (hletters : AreLetters words) (steps : Nat) (s : List Char) :
    ∃ m, SpellsModifiers words m ∧ s = m ++ afterModifiers words steps s := by
  induction steps generalizing s with
  | zero => exact ⟨[], .nil, rfl⟩
  | succ steps ih =>
    rw [afterModifiers]
    split
    · rename_i t ht
      obtain ⟨m, hm, -, rfl⟩ := (afterModifier_eq_some_iff hletters).mp ht
      obtain ⟨more, hmore, hrest⟩ := ih t
      exact ⟨m ++ more, .cons hm hmore, by rw [List.append_assoc, ← hrest]⟩
    · exact ⟨[], .nil, rfl⟩

/-- All modifiers are skipped. -/
theorem afterModifiers_append (hletters : AreLetters words) (h : SpellsModifiers words m)
    (hsolid : StartsSolid rest) (hend : afterModifier words rest = none) {steps : Nat}
    (hsteps : (m ++ rest).length ≤ steps) : afterModifiers words steps (m ++ rest) = rest := by
  -- One step takes one modifier, which is at least one character long.
  induction h generalizing steps with
  | nil =>
    cases steps with
    | zero => rfl
    | succ steps => rw [List.nil_append, afterModifiers, hend]
  | @cons m more hfirst hmore ih =>
    obtain ⟨c, t, rfl, -⟩ := hfirst.exists_letter hletters
    cases steps with
    | zero => cases hsteps
    | succ steps =>
      have hskip : afterModifier words (c :: t ++ more ++ rest) = some (more ++ rest) :=
        (afterModifier_eq_some_iff hletters).mpr
          ⟨_, hfirst, hmore.startsSolid_append hletters hsolid, List.append_assoc _ _ _⟩
      rw [afterModifiers, hskip]
      exact ih (by simp only [List.length_append, List.length_cons] at hsteps ⊢; omega)

/-! ### Names and classes -/

/-- A name is read to its end. -/
theorem readName?_eq_some_iff :
    readName? s = some (name, rest) ↔ IsName name ∧ EndsName rest ∧ s = name ++ rest := by
  constructor
  · intro h
    unfold readName? at h
    split at h
    · rename_i c t
      split at h
      · rename_i hc
        obtain ⟨rfl, rfl⟩ := Prod.mk.inj (Option.some.inj h)
        refine ⟨.intro hc fun d hd => List.mem_takeWhile_imp hd, fun d hd => ?_, ?_⟩
        · have hstop := List.head?_dropWhile_not Text.isNameChar t
          rw [Option.mem_def.mp hd] at hstop
          exact hstop
        · rw [List.cons_append, List.takeWhile_append_dropWhile]
      · cases h
    · cases h
  · rintro ⟨⟨hc, hname⟩, hend, rfl⟩
    rename_i c t
    -- The first character that may not be in a name is where the rest begins.
    have hdrop : (t ++ rest).dropWhile Text.isNameChar = rest := Text.dropWhile_append_eq hname hend
    have htake : (t ++ rest).takeWhile Text.isNameChar = t := by
      have hall := List.takeWhile_append_dropWhile (p := Text.isNameChar) (l := t ++ rest)
      rw [hdrop] at hall
      exact List.append_cancel_right hall
    rw [List.cons_append, readName?, if_pos hc, hdrop, htake]

/-- All words of class lines are made of letters. -/
theorem areLetters_class : AreLetters (classModifiers ++ classWords) := by
  decide +kernel

theorem areLetters_classModifiers : AreLetters classModifiers :=
  fun word hword => areLetters_class word (List.mem_append_left _ hword)

theorem areLetters_classWords : AreLetters classWords :=
  fun word hword => areLetters_class word (List.mem_append_right _ hword)

theorem findSome?_classWords (s : List Char) :
    classWords.findSome? (fun word => (afterPrefix word s).bind afterBlanks) =
      afterModifier classWords s := rfl

/-- A name does not begin with a blank. -/
theorem startsSolid_name (h : IsName name) (s : List Char) : StartsSolid (name ++ s) := by
  obtain ⟨hc, -⟩ := h
  intro d hd
  obtain rfl := Option.some.inj hd
  exact isBlank_of_isNameStart hc

/-- A word that opens a class is no modifier. -/
theorem afterModifier_classWord (hword : word ∈ classWords) (hspacing : IsSpacing spacing)
    (hrest : StartsSolid rest) :
    afterModifier classModifiers (word.toList ++ (spacing ++ rest)) = none := by
  have hafter : afterWord (word.toList ++ (spacing ++ rest)) word = some rest :=
    afterWord_eq_some_iff.mpr ⟨[], spacing, .absent, hspacing, hrest, rfl⟩
  rw [afterModifier_eq_findSome?, List.findSome?_eq_none_iff]
  intro word' hword'
  -- The word of the class is skipped in one way only, and it is none of the modifiers.
  cases hafter' : afterWord (word.toList ++ (spacing ++ rest)) word' with
  | none => rfl
  | some rest' =>
    obtain rfl := afterWord_unique areLetters_class (List.mem_append_right _ hword)
      (List.mem_append_left _ hword') hafter hafter'
    exact absurd hword' ((show ∀ w ∈ classWords, w ∉ classModifiers by decide) word hword)

/-- **Class lines.** The lines that declare a class are those with the pattern of a class, and the
name is the one in the pattern. -/
theorem classLine?_eq_some_iff : classLine? line = some name ↔ MatchesClass line name := by
  unfold classLine?
  simp only [Option.bind_eq_bind, Option.bind_eq_some_iff, findSome?_classWords]
  constructor
  · rintro ⟨s, hs, ⟨name', rest⟩, hread, hname⟩
    obtain rfl := Option.some.inj hname
    obtain ⟨indent, hindent, hline, -⟩ := exists_indent line
    -- From left to right: the indentation, the modifiers, the word and the name.
    obtain ⟨modifiers, hmodifiers, hmore⟩ :=
      exists_modifiers areLetters_classModifiers line.length (Text.trimStart line)
    rw [afterModifier_eq_findSome?] at hs
    obtain ⟨word, hword, hafter⟩ := List.exists_of_findSome?_eq_some hs
    obtain ⟨scope, spacing, hscope, hspacing, -, htail⟩ := afterWord_eq_some_iff.mp hafter
    obtain ⟨hname, hend, rfl⟩ := readName?_eq_some_iff.mp hread
    -- No word that opens a class carries a scope.
    cases hscope with
    | present hpub =>
      rw [hpub] at hword
      exact absurd hword (by decide)
    | absent =>
      rw [List.nil_append] at htail
      rw [hline, hmore, htail]
      exact .intro hindent hmodifiers hword hspacing hname hend
  · rintro ⟨hindent, hmodifiers, hword, hspacing, hname, hend⟩
    rename_i indent modifiers spacing rest word
    have hsolid := startsSolid_name hname rest
    -- The modifiers end at the word of the class, for it is no modifier.
    have hnone := afterModifier_classWord hword hspacing hsolid
    have hkeyword : SpellsModifier classWords (word.toList ++ spacing) :=
      .intro hword .absent hspacing
    have hfound : afterModifier classWords (word.toList ++ (spacing ++ (name ++ rest))) =
        some (name ++ rest) :=
      (afterModifier_eq_some_iff areLetters_classWords).mpr
        ⟨_, hkeyword, hsolid, (List.append_assoc _ _ _).symm⟩
    obtain ⟨c, t, hletter, hc⟩ := hkeyword.exists_letter areLetters_classWords
    have htail : StartsSolid (word.toList ++ (spacing ++ (name ++ rest))) := by
      rw [← List.append_assoc, hletter]
      intro d hd
      obtain rfl := Option.some.inj hd
      exact isBlank_of_isAlpha hc
    generalize word.toList ++ (spacing ++ (name ++ rest)) = tail at hnone hfound htail ⊢
    refine ⟨name ++ rest, ?_, (name, rest), readName?_eq_some_iff.mpr ⟨hname, hend, rfl⟩, rfl⟩
    rw [trimStart_append hindent (hmodifiers.startsSolid_append areLetters_classModifiers htail),
      afterModifiers_append areLetters_classModifiers hmodifiers htail hnone, hfound]
    simp

end GuidedTour
