import GuidedTour.Proofs.Outline.LinePattern

namespace GuidedTour

/-!
# What the line of a function looks like

The pattern of function lines as a grammar, apart from the functions that look for it.

* `SpellsCall`, `SpellsModifiedCall`, `MatchesCall` — a name and an opening parenthesis, with
  modifiers before them, and with an indentation as well;
* `FindsCall` — the call with as many modifiers as there can be; `findsCall_modifiedCall?` says that
  the search comes to it;
* `DeclaresCallable` — lines that declare a function; `exists_callableLine?_iff` says that no other
  line does.
-/

/-! ### The grammar -/

/-- Type parameters in angle brackets, which may be missing. -/
inductive SpellsTypeParameters : List Char → Prop
  | absent : SpellsTypeParameters []
  | present {inner : List Char} (hinner : '>' ∉ inner) :
      SpellsTypeParameters ('<' :: (inner ++ ['>']))

/-- A name, type parameters and an opening parenthesis, and what follows it. -/
inductive SpellsCall : List Char → List Char → List Char → Prop
  | intro {name before parameters after rest : List Char} (hname : IsName name)
      (hbefore : IsBlanks before) (hparameters : SpellsTypeParameters parameters)
      (hafter : IsBlanks after) :
      SpellsCall (name ++ (before ++ (parameters ++ (after ++ '(' :: rest)))) name rest

/-- Modifiers before a call. -/
inductive SpellsModifiedCall : List Char → List Char → List Char → List Char → Prop
  | intro {modifiers text name rest : List Char}
      (hmodifiers : SpellsModifiers callableModifiers modifiers)
      (hcall : SpellsCall text name rest) :
      SpellsModifiedCall (modifiers ++ text) modifiers name rest

/-- A line with the pattern of a function: its modifiers, its name and what follows the
parenthesis. -/
inductive MatchesCall : List Char → List Char → List Char → List Char → Prop
  | intro {indent s modifiers name rest : List Char} (hindent : IsBlanks indent)
      (hcall : SpellsModifiedCall s modifiers name rest) :
      MatchesCall (indent ++ s) modifiers name rest

/-- A text that ends as a body begins, blanks aside. -/
inductive EndsInBody : List Char → Prop
  | intro {s blanks : List Char} {ending : String} (hending : ending ∈ ["\x7b", ":", "=>"])
      (hblanks : IsBlanks blanks) : EndsInBody (s ++ ending.toList ++ blanks)

/-- A line that declares a function, and whether `async` is among the words of its modifiers. Where
the modifiers could end in several places, they end in the last one. -/
inductive DeclaresCallable (line name : List Char) : Bool → Prop
  | intro {modifiers rest : List Char} (hmatch : MatchesCall line modifiers name rest)
      (hlongest : ∀ modifiers' name' rest', MatchesCall line modifiers' name' rest' →
        modifiers'.length ≤ modifiers.length)
      (hname : String.ofList name ∉ controlWords) (hbody : EndsInBody rest) :
      DeclaresCallable line name ((Text.words modifiers).contains "async".toList)

variable {s t rest name line modifiers parameters : List Char}

/-! ### Calls -/

/-- What is skipped are type parameters, which may be missing. -/
theorem exists_typeParameters (s : List Char) :
    ∃ parameters, SpellsTypeParameters parameters ∧ s = parameters ++ afterTypeParameters s := by
  unfold afterTypeParameters
  split
  · split
    · rename_i rest hclose
      obtain ⟨inner, hinner, rfl⟩ := dropWhile_eq_cons_iff.mp hclose
      exact ⟨_, .present hinner, by simp⟩
    · exact ⟨[], .absent, rfl⟩
  · exact ⟨[], .absent, rfl⟩

/-- A name ends at blanks, and where there are none, at what follows. -/
theorem endsName_blanks {blanks : List Char} (hblanks : IsBlanks blanks) (h : EndsName s) :
    EndsName (blanks ++ s) := by
  cases blanks with
  | nil => exact h
  | cons c blanks =>
    intro d hd
    obtain rfl := Option.some.inj hd
    exact (not_name_of_isBlank (hblanks _ List.mem_cons_self)).2.1

/-- Behind a name, blanks and type parameters are skipped up to the parenthesis. -/
theorem trimStart_typeParameters {before after : List Char} (hbefore : IsBlanks before)
    (hparameters : SpellsTypeParameters parameters) (hafter : IsBlanks after) (rest : List Char) :
    Text.trimStart (afterTypeParameters
      (Text.trimStart (before ++ (parameters ++ (after ++ '(' :: rest))))) = '(' :: rest := by
  have hopen : StartsSolid ('(' :: rest) := by
    intro c hc
    obtain rfl := Option.some.inj hc
    decide
  cases hparameters with
  | absent =>
    have hblanks : IsBlanks (before ++ after) := by
      intro c hc
      exact (List.mem_append.mp hc).elim (hbefore c) (hafter c)
    rw [List.nil_append, ← List.append_assoc, trimStart_append hblanks hopen]
    rfl
  | @present inner hinner =>
    have hangle : StartsSolid ('<' :: (inner ++ ['>']) ++ (after ++ '(' :: rest)) := by
      intro c hc
      obtain rfl := Option.some.inj hc
      decide
    -- The parameters end at the first closing sign, for there is none within.
    have hclose : (inner ++ ['>'] ++ (after ++ '(' :: rest)).dropWhile (· != '>') =
        '>' :: (after ++ '(' :: rest) :=
      dropWhile_eq_cons_iff.mpr ⟨inner, hinner, by simp⟩
    rw [trimStart_append hbefore hangle, List.cons_append, afterTypeParameters, hclose]
    exact trimStart_append hafter hopen

/-- A name ends where the type parameters or the bracket of a call begin. -/
theorem endsName_typeParameters {before after : List Char} (hbefore : IsBlanks before)
    (hparameters : SpellsTypeParameters parameters) (hafter : IsBlanks after) (rest : List Char) :
    EndsName (before ++ (parameters ++ (after ++ '(' :: rest))) := by
  apply endsName_blanks hbefore
  cases hparameters with
  | absent =>
    apply endsName_blanks hafter
    intro c hc
    obtain rfl := Option.some.inj hc
    decide
  | present =>
    intro c hc
    obtain rfl := Option.some.inj hc
    decide

/-- A name with a call begins the text if that is so after the name. -/
theorem namedCall?_eq_some_iff {call : Callable} :
    namedCall? s = some call ↔
      ∃ name rest, SpellsCall s name rest ∧ call = ⟨name, false, rest⟩ := by
  constructor
  · intro h
    unfold namedCall? at h
    simp only [Option.bind_eq_bind, Option.bind_eq_some_iff] at h
    obtain ⟨⟨name, t⟩, hread, hcall⟩ := h
    obtain ⟨hname, -, rfl⟩ := readName?_eq_some_iff.mp hread
    -- Between the name and the bracket stand blanks, type parameters and blanks again.
    obtain ⟨before, hbefore, ht, -⟩ := exists_indent t
    obtain ⟨parameters, hparameters, hu⟩ := exists_typeParameters (Text.trimStart t)
    obtain ⟨after, hafter, hv, -⟩ := exists_indent (afterTypeParameters (Text.trimStart t))
    split at hcall
    · rename_i rest hopen
      obtain rfl := Option.some.inj hcall
      refine ⟨name, rest, ?_, rfl⟩
      simp only at hopen
      rw [ht, hu, hv, hopen]
      exact .intro hname hbefore hparameters hafter
    · cases hcall
  · rintro ⟨name, rest, ⟨hname, hbefore, hparameters, hafter⟩, rfl⟩
    have hread := readName?_eq_some_iff.mpr
      ⟨hname, endsName_typeParameters hbefore hparameters hafter rest, rfl⟩
    unfold namedCall?
    simp only [Option.bind_eq_bind, hread, Option.bind_some,
      trimStart_typeParameters hbefore hparameters hafter rest]
    rfl

/-! ### Modifiers -/

theorem areLetters_callableModifiers : AreLetters callableModifiers := by
  decide +kernel

/-- A call does not begin with a blank. -/
theorem SpellsCall.startsSolid (h : SpellsCall s name rest) : StartsSolid s := by
  obtain ⟨hname, -, -, -⟩ := h
  exact startsSolid_name hname _

/-- A call stands by itself, or a modifier stands before a modified call. -/
theorem SpellsModifiedCall.cases_modifiers (h : SpellsModifiedCall s modifiers name rest) :
    modifiers = [] ∧ SpellsCall s name rest ∨ ∃ m more t, modifiers = m ++ more ∧ s = m ++ t ∧
      SpellsModifier callableModifiers m ∧ StartsSolid t ∧ SpellsModifiedCall t more name rest := by
  obtain ⟨hmodifiers, hcall⟩ := h
  cases hmodifiers with
  | nil => exact .inl ⟨rfl, hcall⟩
  | cons hfirst hmore =>
    refine .inr ⟨_, _, _, rfl, List.append_assoc _ _ _, hfirst, ?_, .intro hmore hcall⟩
    exact hmore.startsSolid_append areLetters_callableModifiers hcall.startsSolid

/-- What is found in a text: the call with the longest modifiers, or none where there is no call. -/
inductive FindsCall (s : List Char) : Option Callable → Prop
  | found {modifiers name rest : List Char} (hcall : SpellsModifiedCall s modifiers name rest)
      (hlongest : ∀ modifiers' name' rest', SpellsModifiedCall s modifiers' name' rest' →
        modifiers'.length ≤ modifiers.length) :
      FindsCall s (some ⟨name, (Text.words modifiers).contains "async".toList, rest⟩)
  | missing (hnone : ∀ modifiers name rest, ¬ SpellsModifiedCall s modifiers name rest) :
      FindsCall s none

/-- Where no call has a modifier, it is enough to look for one that has none. -/
theorem findsCall_namedCall?
    (hbare : ∀ modifiers name rest, SpellsModifiedCall s modifiers name rest → modifiers = []) :
    FindsCall s (namedCall? s) := by
  cases hfound : namedCall? s with
  | none =>
    refine .missing fun modifiers name rest h => ?_
    obtain ⟨-, hcall⟩ | ⟨m, more, t, hmodifiers, -, hm, -⟩ := h.cases_modifiers
    · rw [namedCall?_eq_some_iff.mpr ⟨name, rest, hcall, rfl⟩] at hfound
      cases hfound
    · -- A call with a modifier would have none.
      obtain ⟨c, u, rfl, -⟩ := hm.exists_letter areLetters_callableModifiers
      rw [hbare _ _ _ h] at hmodifiers
      cases hmodifiers
  | some call =>
    obtain ⟨name, rest, hcall, rfl⟩ := namedCall?_eq_some_iff.mp hfound
    exact .found (.intro .nil hcall) fun modifiers' name' rest' h => by rw [hbare _ _ _ h]

/-- The words of a text go on behind a blank. -/
theorem wordsFrom_append {c : Char} (hc : Text.isBlank c = true) (word s t : List Char) :
    Text.wordsFrom word (s ++ c :: t) = Text.wordsFrom word (s ++ [c]) ++ Text.words t := by
  induction s generalizing word with
  | nil =>
    simp only [List.nil_append, Text.wordsFrom, hc, if_true]
    split
    · rfl
    · rfl
  | cons d s ih =>
    simp only [List.cons_append, Text.wordsFrom]
    split
    · split
      · exact ih []
      · rw [ih [], List.cons_append]
    · exact ih (d :: word)

/-- The words of a modifier and what follows it are its words and those that follow. -/
theorem SpellsModifier.words_append {m : List Char} {words : List String}
    (h : SpellsModifier words m) (t : List Char) :
    Text.words (m ++ t) = Text.words m ++ Text.words t := by
  obtain ⟨-, -, hspacing⟩ := h
  rename_i word scope spacing
  -- The blank that a modifier ends with ends a word.
  obtain ⟨init, c, rfl⟩ := (List.eq_nil_or_concat' spacing).resolve_left hspacing.1
  have hc : Text.isBlank c = true := hspacing.2 c (by simp)
  have hsplit := wordsFrom_append hc [] (word.toList ++ (scope ++ init)) t
  simpa [Text.words] using hsplit

/-- What is skipped is marked as asynchronous if one of its words says so. -/
theorem marksAsync_append (s t : List Char) :
    marksAsync (s ++ t) t = (Text.words s).contains "async".toList := by
  simp [marksAsync]

/-- The search comes to the call with the longest modifiers. -/
theorem findsCall_modifiedCall? (steps : Nat) (hsteps : s.length ≤ steps) :
    FindsCall s (modifiedCall? steps s) := by
  -- Nothing is left of a modified call where no modifier begins the text.
  have hbare : ∀ {s : List Char}, afterModifier callableModifiers s = none →
      ∀ modifiers name rest, SpellsModifiedCall s modifiers name rest → modifiers = [] := by
    intro s hnone modifiers name rest h
    obtain ⟨hnil, -⟩ | ⟨m, more, t, -, hs, hm, hsolid, -⟩ := h.cases_modifiers
    · exact hnil
    · have hsome := (afterModifier_eq_some_iff areLetters_callableModifiers).mpr ⟨m, hm, hsolid, hs⟩
      rw [hnone] at hsome
      cases hsome
  -- Modifiers are taken one by one, and given back one by one while no call follows them.
  induction steps generalizing s with
  | zero =>
    obtain rfl := List.eq_nil_of_length_eq_zero (Nat.le_zero.mp hsteps)
    exact findsCall_namedCall? (hbare rfl)
  | succ steps ih =>
    rw [modifiedCall?]
    split
    · rename_i hnone
      exact findsCall_namedCall? (hbare hnone)
    · rename_i t ht
      obtain ⟨m, hm, hsolid, rfl⟩ := (afterModifier_eq_some_iff areLetters_callableModifiers).mp ht
      obtain ⟨c, u, hcu, -⟩ := hm.exists_letter areLetters_callableModifiers
      have hlength : t.length ≤ steps := by
        rw [hcu] at hsteps
        simp only [List.length_append, List.length_cons] at hsteps
        omega
      -- Whatever modifiers a call has, it has this one in front or none at all.
      have hfirst : ∀ modifiers name rest, SpellsModifiedCall (m ++ t) modifiers name rest →
          modifiers = [] ∨ ∃ more, modifiers = m ++ more ∧ SpellsModifiedCall t more name rest := by
        intro modifiers name rest h
        obtain ⟨hnil, -⟩ | ⟨m', more, t', rfl, heq, hm', hsolid', hmore⟩ := h.cases_modifiers
        · exact .inl hnil
        · obtain ⟨rfl, rfl⟩ :=
            hm.eq_of_append_eq areLetters_callableModifiers hm' hsolid hsolid' heq
          exact .inr ⟨more, rfl, hmore⟩
      have hcall := ih hlength
      generalize modifiedCall? steps t = found at hcall ⊢
      cases hcall with
      | @found more name rest hmore hlongest =>
        have hasync : ((Text.words more).contains "async".toList || marksAsync (m ++ t) t) =
            (Text.words (m ++ more)).contains "async".toList := by
          rw [marksAsync_append, hm.words_append, List.contains_append, Bool.or_comm]
        have hwhole : SpellsModifiedCall (m ++ t) (m ++ more) name rest := by
          obtain ⟨hmodifiers, hcall⟩ := hmore
          rw [← List.append_assoc]
          exact .intro (.cons hm hmodifiers) hcall
        simp only [hasync]
        refine .found hwhole fun modifiers' name' rest' h => ?_
        obtain rfl | ⟨more', rfl, hmore'⟩ := hfirst _ _ _ h
        · exact Nat.zero_le _
        · have hle := hlongest _ _ _ hmore'
          simp only [List.length_append]
          omega
      | missing hnone =>
        refine findsCall_namedCall? fun modifiers name rest h => ?_
        obtain hnil | ⟨more, -, hmore⟩ := hfirst _ _ _ h
        · exact hnil
        · exact absurd hmore (hnone _ _ _)

/-! ### Lines -/

/-- A line has the pattern of a call if it has it behind its indentation. -/
theorem matchesCall_iff :
    MatchesCall line modifiers name rest ↔
      SpellsModifiedCall (Text.trimStart line) modifiers name rest := by
  constructor
  · rintro ⟨hindent, hmodifiers, hcall⟩
    rename_i indent text
    rw [trimStart_append hindent
      (hmodifiers.startsSolid_append areLetters_callableModifiers hcall.startsSolid)]
    exact .intro hmodifiers hcall
  · intro h
    obtain ⟨indent, hindent, hline, -⟩ := exists_indent line
    rw [hline]
    exact .intro hindent h

/-- The length of the modifiers tells where the name is, and what follows it. -/
theorem SpellsModifiedCall.eq_of_length_eq {modifiers' name' rest' : List Char}
    (h : SpellsModifiedCall s modifiers name rest)
    (h' : SpellsModifiedCall s modifiers' name' rest')
    (hlength : modifiers.length = modifiers'.length) :
    modifiers = modifiers' ∧ name = name' ∧ rest = rest' := by
  obtain ⟨-, hcall⟩ := h
  rename_i text
  generalize hs : modifiers ++ text = s at h'
  obtain ⟨-, hcall'⟩ := h'
  obtain ⟨rfl, rfl⟩ := List.append_inj hs hlength
  have hfound := namedCall?_eq_some_iff.mpr ⟨name, rest, hcall, rfl⟩
  have hfound' := namedCall?_eq_some_iff.mpr ⟨name', rest', hcall', rfl⟩
  obtain ⟨rfl, -, rfl⟩ := Callable.mk.inj (Option.some.inj (hfound.symm.trans hfound'))
  exact ⟨rfl, rfl, rfl⟩

/-- What opens a body ends with one of its signs, and with blanks at most behind it. -/
theorem opensBody_iff : opensBody rest = true ↔ EndsInBody rest := by
  constructor
  · intro h
    have hend : Text.trimEnd rest ++ rest.rtakeWhile Text.isBlank = rest :=
      List.rdropWhile_append_rtakeWhile
    have hblanks : IsBlanks (rest.rtakeWhile Text.isBlank) := fun c => List.mem_rtakeWhile_imp
    have hbody : ∀ (t : List Char) (ending : String), ending ∈ ["\x7b", ":", "=>"] →
        Text.trimEnd rest = t ++ ending.toList → EndsInBody rest := by
      intro t ending hending hcore
      rw [← hend, hcore]
      exact .intro hending hblanks
    unfold opensBody at h
    split at h
    · rename_i t hcore
      exact hbody t.reverse "\x7b" (by decide) (List.reverse_eq_cons_iff.mp hcore)
    · rename_i t hcore
      exact hbody t.reverse ":" (by decide) (List.reverse_eq_cons_iff.mp hcore)
    · rename_i t hcore
      refine hbody t.reverse "=>" (by decide) ?_
      rw [List.reverse_eq_cons_iff.mp hcore]
      simp
    · cases h
  · rintro ⟨hending, hblanks⟩
    rename_i s blanks ending
    -- None of the signs ends with a blank, so only what follows is trimmed off.
    have hlast : ∀ c ∈ (s ++ ending.toList).getLast?, Text.isBlank c = false := by
      simp only [List.mem_cons, List.not_mem_nil, or_false] at hending
      rcases hending with rfl | rfl | rfl
      all_goals
        intro c hc
        simp at hc
        rw [← hc]
        decide
    rw [opensBody, Text.trimEnd_append_blanks hblanks hlast]
    simp only [List.mem_cons, List.not_mem_nil, or_false] at hending
    rcases hending with rfl | rfl | rfl <;> simp

/-- **Function lines.** The lines that declare a function are those with the pattern of a function,
a name that opens no control flow, and the end of a line where a body begins. The name, and whether
the function is asynchronous, are told from the match with the longest modifiers. -/
theorem exists_callableLine?_iff {isAsync : Bool} :
    (∃ rest, callableLine? line = some ⟨name, isAsync, rest⟩) ↔
      DeclaresCallable line name isAsync := by
  have hlength : (Text.trimStart line).length ≤ line.length := by
    obtain ⟨indent, -, hline, -⟩ := exists_indent line
    rw [hline, List.length_append, ← hline]
    exact Nat.le_add_left _ _
  have hfinds := findsCall_modifiedCall? line.length hlength
  unfold callableLine?
  generalize modifiedCall? line.length (Text.trimStart line) = found at hfinds ⊢
  cases hfinds with
  | missing hnone =>
    constructor
    · rintro ⟨rest, h⟩
      cases h
    · rintro ⟨hmatch, -, -, -⟩
      exact absurd (matchesCall_iff.mp hmatch) (hnone _ _ _)
  | @found modifiers name' rest' hcall hlongest =>
    simp only
    constructor
    · rintro ⟨rest, h⟩
      split at h
      · cases h
      · rename_i hbody
        obtain ⟨rfl, rfl, rfl⟩ := Callable.mk.inj (Option.some.inj h)
        simp only [Bool.or_eq_true, not_or, List.contains_iff_mem, Bool.not_eq_true',
          Bool.not_eq_false] at hbody
        exact .intro (matchesCall_iff.mpr hcall)
          (fun modifiers' name' rest' h => hlongest _ _ _ (matchesCall_iff.mp h)) hbody.1
          (opensBody_iff.mp hbody.2)
    · rintro ⟨hmatch, hlongest', hname, hbody⟩
      rename_i modifiers' rest
      have hcall' := matchesCall_iff.mp hmatch
      -- Both matches are the longest, so they are one.
      have hle := hlongest _ _ _ hcall'
      have hge := hlongest' _ _ _ (matchesCall_iff.mpr hcall)
      obtain ⟨rfl, rfl, rfl⟩ := hcall.eq_of_length_eq hcall' (by omega)
      refine ⟨rest', if_neg ?_⟩
      simp only [Bool.or_eq_true, not_or, List.contains_iff_mem, Bool.not_eq_true',
        Bool.not_eq_false]
      exact ⟨hname, opensBody_iff.mpr hbody⟩

end GuidedTour
