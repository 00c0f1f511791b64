import GuidedTour.Outline.Specifier
import GuidedTour.Proofs.Outline.LinePattern
import GuidedTour.Proofs.SingleSpaces

namespace GuidedTour

/-!
# Import statements with a module in quotes

* `QuotedImport` — the word `import`, a clause without quotes, `from`, and a module in quotes;
* `QuotedImport.quotedModule?_text` — the module that is read from the statement is its own;
* `two_le_countP_of_quotedModule?` — none is read where there are not two quotes;
* `plainImport?_eq_some_iff` — the dotted name behind `import`, read where there is no such module;
* `mem_moduleSpecifiers_iff` — the modules of a list of statements;
* `QuotedImport.spaced` — with single spaces, the statement is again one.
-/

/-- A text without quotes. -/
def Unquoted (s : List Char) : Prop := ∀ c ∈ s, isQuote c = false

instance Unquoted.decidable (s : List Char) : Decidable (Unquoted s) := List.decidableBAll _ s

instance IsBlanks.decidable (s : List Char) : Decidable (IsBlanks s) := List.decidableBAll _ s

/-- An import statement with its module in quotes, and what comes after them. -/
structure QuotedImport where
  clause : List Char
  gap : List Char
  opening : Char
  name : List Char
  closing : Char
  ending : List Char
  clause_unquoted : Unquoted clause
  gap_blank : IsBlanks gap
  opening_quotes : isQuote opening = true
  name_ne_nil : name ≠ []
  name_unquoted : Unquoted name
  closing_quotes : isQuote closing = true

namespace QuotedImport

/-- What stands before the module. -/
def beginning (i : QuotedImport) : List Char :=
  "import".toList ++ (i.clause ++ ("from".toList ++ i.gap))

/-- The statement up to the closing quote. -/
def body (i : QuotedImport) : List Char := i.beginning ++ i.opening :: (i.name ++ [i.closing])

/-- The whole of the statement. -/
def text (i : QuotedImport) : List Char := i.body ++ i.ending

theorem beginning_eq (i : QuotedImport) :
    i.beginning = "import".toList ++ (i.clause ++ ("from".toList ++ i.gap)) := rfl

end QuotedImport

variable {s t rest found name ending word : List Char} {q q' : Char}

/-- A quote is no blank. -/
theorem isBlank_of_isQuote (h : isQuote q = true) : Text.isBlank q = false := by
  rw [isQuote, Bool.or_eq_true, beq_iff_eq, beq_iff_eq] at h
  rcases h with rfl | rfl <;> rfl

/-- Blanks have no quotes. -/
theorem IsBlanks.unquoted (h : IsBlanks s) : Unquoted s := by
  intro c hc
  by_contra hquote
  have hblank := h c hc
  rw [isBlank_of_isQuote (by simpa using hquote)] at hblank
  exact absurd hblank (by decide)

theorem unquoted_append : Unquoted (s ++ t) ↔ Unquoted s ∧ Unquoted t := List.forall_mem_append

/-! ### Modules in quotes -/

/-- The word that a module is named after has no quotes. -/
theorem exists_of_afterImporter (h : afterImporter s = some rest) :
    ∃ word, s = word ++ rest ∧ Unquoted word := by
  rw [afterImporter, Option.or_eq_some_iff] at h
  -- The three words are tried in turn. Only the last one has a bracket behind it.
  rcases h with h | ⟨-, h⟩
  · exact ⟨"from".toList, afterPrefix_eq_some_iff.mp h, by decide⟩
  rw [Option.or_eq_some_iff] at h
  rcases h with h | ⟨-, h⟩
  · exact ⟨"import".toList, afterPrefix_eq_some_iff.mp h, by decide⟩
  obtain ⟨args, hrequire, hopen⟩ := Option.bind_eq_some_iff.mp h
  obtain ⟨indent, hindent, hargs, -⟩ := exists_indent args
  split at hopen
  · next opened hparenthesis =>
    obtain rfl := Option.some.inj hopen
    refine ⟨"require".toList ++ (indent ++ ['(']), ?_, ?_⟩
    · rw [afterPrefix_eq_some_iff.mp hrequire, hargs, hparenthesis]
      simp
    · have hword : Unquoted "require".toList := by decide
      have hparen : Unquoted ['('] := by decide
      exact unquoted_append.mpr ⟨hword, unquoted_append.mpr ⟨hindent.unquoted, hparen⟩⟩
  · cases hopen

/-- A module that is read right here is what comes after the first quote, up to the next one. -/
theorem exists_of_quotedModuleHere? (h : quotedModuleHere? s = some found) :
    ∃ before q rest, s = before ++ q :: rest ∧ Unquoted before ∧ isQuote q = true ∧
      upToQuote rest = some found := by
  rw [quotedModuleHere?] at h
  split at h
  · next q rest hstart =>
    obtain ⟨after, hafter, htrim⟩ := Option.map_eq_some_iff.mp hstart
    obtain ⟨word, rfl, hword⟩ := exists_of_afterImporter hafter
    obtain ⟨indent, hindent, hsplit, -⟩ := exists_indent after
    -- Behind the word there may be blanks, and then comes the quote.
    split at h
    · next hq =>
      refine ⟨word ++ indent, q, rest, ?_, unquoted_append.mpr ⟨hword, hindent.unquoted⟩, hq, h⟩
      rw [hsplit, htrim, List.append_assoc]
    · cases h
  · cases h

/-- There is only one first quote. -/
theorem eq_of_first_quote (hs : Unquoted s) (ht : Unquoted t) (hq : isQuote q = true)
    (hq' : isQuote q' = true) (h : s ++ q :: rest = t ++ q' :: ending) : rest = ending := by
  have hdrop (u : List Char) (hu : Unquoted u) (c : Char) (hc : isQuote c = true)
      (v : List Char) : (u ++ c :: v).dropWhile (fun d => !isQuote d) = c :: v := by
    rw [List.dropWhile_append_of_pos fun d hd => by simp [hu d hd],
      List.dropWhile_cons_of_neg (by simp [hc])]
  have htail := congrArg (List.dropWhile fun d => !isQuote d) h
  rw [hdrop s hs q hq rest, hdrop t ht q' hq' ending] at htail
  exact (List.cons.inj htail).2

/-- A name is taken up to the quote behind it. -/
theorem upToQuote_append (hname : Unquoted name) (hne : name ≠ []) (hq : isQuote q = true)
    (ending : List Char) : upToQuote (name ++ q :: ending) = some name := by
  have hpass : ∀ c ∈ name, (!isQuote c) = true := fun c hc => by simp [hname c hc]
  have htake : (q :: ending).takeWhile (fun c => !isQuote c) = [] :=
    List.takeWhile_cons_of_neg (by simp [hq])
  have hdrop : (q :: ending).dropWhile (fun c => !isQuote c) = q :: ending :=
    List.dropWhile_cons_of_neg (by simp [hq])
  simp only [upToQuote]
  rw [List.takeWhile_append_of_pos hpass, List.dropWhile_append_of_pos hpass, htake, hdrop]
  simp [hne]

theorem quotedModule?_cons (c : Char) (s : List Char) :
    quotedModule? (c :: s) = (quotedModuleHere? (c :: s)).or (quotedModule? s) := by
  rw [quotedModule?]
  cases quotedModuleHere? (c :: s) <;> rfl

/-- What is found at the start is found. -/
theorem quotedModule?_of_here (h : quotedModuleHere? s = some found) :
    quotedModule? s = some found := by
  cases s with
  | nil =>
    have hnil : quotedModuleHere? [] = none := by decide
    rw [hnil] at h
    cases h
  | cons c s => rw [quotedModule?_cons, h, Option.some_or]

/-- Where `from` and blanks precede the first quote, what comes after it is read. -/
theorem quotedModule?_append (hs : Unquoted s) {gap : List Char} (hgap : IsBlanks gap)
    (hq : isQuote q = true) (hfound : upToQuote rest = some found) :
    quotedModule? (s ++ ("from".toList ++ gap ++ q :: rest)) = some found := by
  have hfrom : Unquoted "from".toList := by decide
  induction s with
  | nil =>
    have hafter : afterImporter ("from".toList ++ gap ++ q :: rest) = some (gap ++ q :: rest) := by
      rw [afterImporter, afterPrefix_eq_some_iff.mpr (List.append_assoc _ _ _), Option.some_or]
    have hsolid : StartsSolid (q :: rest) := by
      rintro _ ⟨⟩
      exact isBlank_of_isQuote hq
    refine quotedModule?_of_here ?_
    rw [List.nil_append, quotedModuleHere?, hafter, Option.map_some, trimStart_append hgap hsolid]
    exact (if_pos hq).trans hfound
  | cons c s ih =>
    rw [List.cons_append, quotedModule?_cons, ih fun d hd => hs d (List.mem_cons_of_mem c hd)]
    cases hhere : quotedModuleHere? (c :: (s ++ ("from".toList ++ gap ++ q :: rest))) with
    | none => rfl
    | some other =>
      -- Whatever is read earlier is read from the first quote, too.
      obtain ⟨before, q', rest', hsplit, hbefore, hq', hother⟩ := exists_of_quotedModuleHere? hhere
      have hrest : rest' = rest := by
        refine eq_of_first_quote (t := c :: s ++ ("from".toList ++ gap)) hbefore
          (unquoted_append.mpr ⟨hs, unquoted_append.mpr ⟨hfrom, hgap.unquoted⟩⟩) hq' hq ?_
        rw [← hsplit]
        simp
      rw [hrest, hfound] at hother
      rw [← hother, Option.some_or]

namespace QuotedImport

/-- What stands before the quote has none itself. -/
theorem beginning_unquoted (i : QuotedImport) : Unquoted i.beginning := by
  have himport : Unquoted "import".toList := by decide
  have hfrom : Unquoted "from".toList := by decide
  exact unquoted_append.mpr ⟨himport, unquoted_append.mpr ⟨i.clause_unquoted,
    unquoted_append.mpr ⟨hfrom, i.gap_blank.unquoted⟩⟩⟩

/-- The module that is read from the statement is its own. -/
theorem quotedModule?_text (i : QuotedImport) : quotedModule? i.text = some i.name := by
  have himport : Unquoted "import".toList := by decide
  have hread := quotedModule?_append (unquoted_append.mpr ⟨himport, i.clause_unquoted⟩) i.gap_blank
    i.opening_quotes (upToQuote_append i.name_unquoted i.name_ne_nil i.closing_quotes i.ending)
  rw [← hread, text, body, beginning_eq]
  simp

end QuotedImport

/-! ### Quotes that are cut off -/

/-- What is taken up to a quote has a quote behind it. -/
theorem exists_quote_of_upToQuote (h : upToQuote s = some found) : 0 < s.countP isQuote := by
  simp only [upToQuote] at h
  split at h
  · cases h
  · next hread =>
    have hleft : s.dropWhile (fun c => !isQuote c) ≠ [] := by simp_all
    rw [Ne, List.dropWhile_eq_nil_iff] at hleft
    rw [List.countP_pos_iff]
    simpa using hleft

/-- No module in quotes is read where there are not two quotes. -/
theorem two_le_countP_of_quotedModule? (h : quotedModule? s = some found) :
    2 ≤ s.countP isQuote := by
  induction s with
  | nil => cases h
  | cons c s ih =>
    rw [quotedModule?_cons, Option.or_eq_some_iff] at h
    rcases h with hhere | ⟨-, hlater⟩
    · obtain ⟨before, q, rest, hsplit, -, hq, hrest⟩ := exists_of_quotedModuleHere? hhere
      have hclosing := exists_quote_of_upToQuote hrest
      rw [hsplit, List.countP_append, List.countP_cons_of_pos hq]
      omega
    · exact (ih hlater).trans ((List.sublist_cons_self c s).countP_le)

/-! ### Dotted names -/

/-- No blank is part of a dotted name. -/
theorem isBlank_of_isDotted {c : Char} (h : isDotted c = true) : Text.isBlank c = false := by
  have hall : ∀ n ∈ blankCodes, isDotted (Char.ofNat n) = false := by decide +kernel
  cases hblank : Text.isBlank c with
  | false => rfl
  | true =>
    have hc := hall _ (toNat_mem_blankCodes hblank)
    rw [Char.ofNat_toNat, h] at hc
    cases hc

/-- A run is as long as it can be, and not empty. -/
theorem run?_eq_some_iff {p : Char → Bool} {run : List Char} : run? p s = some (run, rest) ↔
    s = run ++ rest ∧ run ≠ [] ∧ (∀ c ∈ run, p c = true) ∧ ∀ c ∈ rest.head?, p c = false := by
  constructor
  · intro h
    simp only [run?] at h
    split at h
    · cases h
    · next hne =>
      obtain ⟨rfl, rfl⟩ := Prod.mk.inj (Option.some.inj h)
      refine ⟨List.takeWhile_append_dropWhile.symm, by simpa using hne,
        fun c => List.mem_takeWhile_imp, Text.head?_dropWhile_eq_false⟩
  · rintro ⟨rfl, hne, hrun, hrest⟩
    -- What follows the run does not go on with it.
    have htake : rest.takeWhile p = [] := by
      cases rest with
      | nil => rfl
      | cons c rest => exact List.takeWhile_cons_of_neg (by simp [hrest c rfl])
    have hdrop : rest.dropWhile p = rest := by
      cases rest with
      | nil => rfl
      | cons c rest => exact List.dropWhile_cons_of_neg (by simp [hrest c rfl])
    simp only [run?]
    rw [List.takeWhile_append_of_pos hrun, List.dropWhile_append_of_pos hrun, htake, hdrop,
      List.append_nil]
    simp [hne]

/-- The dotted name that follows `import`, as far as it goes. -/
theorem plainImport?_eq_some_iff : plainImport? s = some found ↔
    ∃ spacing rest, IsSpacing spacing ∧ found ≠ [] ∧ (∀ c ∈ found, isDotted c = true) ∧
      (∀ c ∈ rest.head?, isDotted c = false) ∧
      s = "import".toList ++ (spacing ++ (found ++ rest)) := by
  simp only [plainImport?, Option.bind_eq_bind, Option.bind_eq_some_iff, Option.pure_def,
    Option.some.injEq, Prod.exists, afterPrefix_eq_some_iff, afterBlanks_eq_some_iff,
    run?_eq_some_iff]
  constructor
  · rintro ⟨_, ⟨_, rfl, spacing, hspacing, -, rfl⟩, _, rest, ⟨rfl, hne, hdotted, hrest⟩, rfl⟩
    exact ⟨spacing, rest, hspacing, hne, hdotted, hrest, rfl⟩
  · rintro ⟨spacing, rest, hspacing, hne, hdotted, hrest, rfl⟩
    refine ⟨_, ⟨_, rfl, spacing, hspacing, ?_, rfl⟩, found, rest, ⟨rfl, hne, hdotted, hrest⟩, rfl⟩
    -- All blanks are dropped before the name, for the name does not begin with one.
    obtain ⟨c, found, rfl⟩ := List.exists_cons_of_ne_nil hne
    rintro _ ⟨⟩
    exact isBlank_of_isDotted (hdotted c List.mem_cons_self)

/-- What cannot be part of a name can be cut off. -/
theorem plainImport?_append (ht : ∀ c ∈ t, isDotted c = false) :
    plainImport? (s ++ t) = plainImport? s := by
  refine Option.ext fun found => ?_
  rw [plainImport?_eq_some_iff, plainImport?_eq_some_iff]
  constructor
  · rintro ⟨spacing, rest, hspacing, hne, hdotted, hrest, hsplit⟩
    rw [← List.append_assoc, ← List.append_assoc] at hsplit
    rcases List.append_eq_append_iff.mp hsplit with ⟨cut, hs, hcut⟩ | ⟨cut, rfl, rfl⟩
    · by_cases hempty : cut = []
      · rw [hempty, List.append_nil] at hs
        exact ⟨spacing, [], hspacing, hne, hdotted, by simp, by rw [← hs]; simp⟩
      · -- The name does not go on behind the cut: its last character would have to be cut off.
        have hlast := congrArg List.getLast? hs
        rw [List.getLast?_append_of_ne_nil _ hne, List.getLast?_append_of_ne_nil _ hempty,
          List.getLast?_eq_some_getLast hne] at hlast
        have hmem : found.getLast hne ∈ t :=
          hcut ▸ List.mem_append_left rest (List.mem_of_getLast? hlast.symm)
        have hboth := hdotted _ (List.getLast_mem hne)
        rw [ht _ hmem] at hboth
        cases hboth
    · refine ⟨spacing, cut, hspacing, hne, hdotted, fun c hc => hrest c ?_, by simp⟩
      rw [List.head?_append, Option.mem_def.mp hc]
      rfl
  · rintro ⟨spacing, rest, hspacing, hne, hdotted, hrest, rfl⟩
    refine ⟨spacing, rest ++ t, hspacing, hne, hdotted, fun c hc => ?_, by simp⟩
    rw [List.head?_append] at hc
    cases rest with
    | nil => exact ht c (List.mem_of_mem_head? hc)
    | cons d rest => exact hrest c hc

/-! ### The modules of a list of statements -/

/-- Without repetitions, the same texts are in the list. -/
theorem mem_foldl_distinct {ms done : List String} {m : String} :
    m ∈ ms.foldl (fun found m => if found.contains m then found else found ++ [m]) done ↔
      m ∈ done ∨ m ∈ ms := by
  induction ms generalizing done with
  | nil => simp
  | cons first ms ih =>
    rw [List.foldl_cons, ih]
    -- A text that is in the list already is not put in again.
    split
    · next hmem =>
      have hfirst : first ∈ done := by simpa using hmem
      constructor
      · exact Or.imp_right (List.mem_cons_of_mem first)
      · rintro (h | h)
        · exact .inl h
        · rcases List.mem_cons.mp h with rfl | h
          · exact .inl hfirst
          · exact .inr h
    · simp [or_assoc]

/-- A module is told if one of the statements names it. -/
theorem mem_moduleSpecifiers_iff {statements : List String} {m : String} :
    m ∈ moduleSpecifiers statements ↔ ∃ s ∈ statements, moduleSpecifier? s = some m := by
  rw [moduleSpecifiers, mem_foldl_distinct, List.mem_filterMap]
  simp

/-! ### Single spaces -/

/-- Single spaces put no quotes in. -/
theorem Unquoted.singleSpaced (h : Unquoted s) : Unquoted (Text.singleSpaced s) := by
  intro c hc
  rcases Text.mem_or_eq_of_mem_spacedFrom hc with hmem | rfl
  · exact h c hmem
  · decide

/-- With single spaces, blanks are still blanks. -/
theorem IsBlanks.singleSpaced (h : IsBlanks s) : IsBlanks (Text.singleSpaced s) := by
  intro c hc
  rcases Text.mem_or_eq_of_mem_spacedFrom hc with hmem | rfl
  · exact h c hmem
  · decide

namespace QuotedImport

/-- The statement with single spaces, and with something else behind it. -/
def spaced (i : QuotedImport) (ending : List Char) : QuotedImport where
  clause := Text.singleSpaced i.clause
  gap := Text.singleSpaced i.gap
  opening := i.opening
  name := Text.singleSpaced i.name
  closing := i.closing
  ending := ending
  clause_unquoted := i.clause_unquoted.singleSpaced
  gap_blank := i.gap_blank.singleSpaced
  opening_quotes := i.opening_quotes
  name_ne_nil := fun h => i.name_ne_nil (Text.singleSpaced_eq_nil_iff.mp h)
  name_unquoted := i.name_unquoted.singleSpaced
  closing_quotes := i.closing_quotes

/-- The statement on one line with single spaces, up to the closing quote. -/
def line (i : QuotedImport) : List Char := Text.singleSpaced i.body

/-- With single spaces, an import from a quoted module is one again. -/
theorem singleSpaced_body_append (i : QuotedImport) (ending : List Char) :
    Text.singleSpaced (i.body ++ ending) = (i.spaced (Text.singleSpaced ending)).text := by
  have himport : Text.IsSolid "import".toList := by decide
  have hfrom : Text.IsSolid "from".toList := by decide
  simp only [text, body, beginning_eq, List.append_assoc, List.cons_append, List.nil_append]
  rw [Text.singleSpaced_word_append himport, Text.singleSpaced_append_word hfrom (by decide),
    Text.singleSpaced_append_solid (isBlank_of_isQuote i.opening_quotes),
    Text.singleSpaced_append_solid (isBlank_of_isQuote i.closing_quotes)]
  rfl

/-- The line of an import is its text with single spaces. -/
theorem body_spaced (i : QuotedImport) (ending : List Char) : (i.spaced ending).body = i.line := by
  have hbody := singleSpaced_body_append i []
  rw [List.append_nil] at hbody
  exact (List.append_nil _).symm.trans hbody.symm

end QuotedImport

end GuidedTour
