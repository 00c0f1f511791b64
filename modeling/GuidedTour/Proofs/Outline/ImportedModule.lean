import GuidedTour.Outline.Parser
import GuidedTour.Proofs.Outline.QuotedModule
import GuidedTour.Proofs.Outline.Statements
import Mathlib.Data.String.Basic

namespace GuidedTour

/-!
# The module that a file imports

An outline keeps an import statement as one line with single spaces, of at most 240 characters. The
module is read from this line, so that it is lost where the clause before it is long.

* `exists_cleaned` — only blanks and semicolons are cleaned off, at the end of the line;
* `QuotedImport.exists_statementText`, `QuotedImport.moduleSpecifier?_body` — a line with the closing
  quote keeps it, and the module is read from it;
* `moduleSpecifier?_cut` — a line without it gives at most the dotted name behind `import`;
* `QuotedImport.named?`, `imports_namedModule` — so this is the module that a file imports;
* `longImport_losesModule` — a statement whose module is lost.
-/

open GuidedTour.Tree (dropSemicolons importLine statementText)

variable {s t u : List Char}

/-! ### Lines of statements -/

/-- Dropping the last semicolons stops at what does not end in one. -/
theorem exists_dropSemicolons_append (h : ∀ c ∈ s.getLast?, c ≠ ';') (t : List Char) :
    ∃ t', dropSemicolons (s ++ t) = s ++ t' := by
  have hs : s.reverse.dropWhile (· == ';') = s.reverse := by
    cases hrev : s.reverse with
    | nil => rfl
    | cons c rest =>
      refine List.dropWhile_cons_of_neg ?_
      simpa using h c (by rw [← List.head?_reverse, hrev]; rfl)
  rw [dropSemicolons, List.reverse_append, List.dropWhile_append, hs]
  split
  · exact ⟨[], by simp⟩
  · exact ⟨((t.reverse).dropWhile (· == ';')).reverse, by simp⟩

/-- Trimming stops at what has no blank at either end. -/
theorem exists_trim_append (hfirst : StartsSolid s) (hne : s ≠ [])
    (hlast : ∀ c ∈ s.getLast?, Text.isBlank c = false) (t : List Char) :
    ∃ t', Text.trim (s ++ t) = s ++ t' := by
  obtain ⟨c, s, rfl⟩ := List.exists_cons_of_ne_nil hne
  have hstart : Text.trimStart (c :: s ++ t) = c :: s ++ t :=
    List.dropWhile_cons_of_neg (by simp [hfirst c rfl])
  rw [Text.trim, hstart, Text.trimEnd_append]
  split
  · exact ⟨[], by rw [Text.trimEnd_eq_self hlast, List.append_nil]⟩
  · exact ⟨Text.trimEnd t, rfl⟩

namespace QuotedImport

/-- An import does not begin with a blank. -/
theorem startsSolid_body (i : QuotedImport) : StartsSolid i.body := by
  rintro _ ⟨⟩
  decide

/-- The last of an import is its closing quote. -/
theorem getLast?_body (i : QuotedImport) : i.body.getLast? = some i.closing := by
  rw [body, List.getLast?_append_of_ne_nil _ (by simp), List.getLast?_cons, List.getLast?_concat]
  rfl

theorem body_ne_nil (i : QuotedImport) : i.body ≠ [] := by
  intro h
  have hlast := i.getLast?_body
  rw [h] at hlast
  cases hlast

/-- An import is not touched by trimming, only what follows it is. -/
theorem exists_trim_text (i : QuotedImport) (ending : List Char) :
    ∃ ending', Text.trim (i.body ++ ending) = i.body ++ ending' :=
  exists_trim_append i.startsSolid_body i.body_ne_nil
    (fun c hc => by
      rw [getLast?_body, Option.mem_some_iff] at hc
      exact hc ▸ isBlank_of_isQuote i.closing_quotes) ending

/-- Of a statement with its closing quote, the module is read. -/
theorem moduleSpecifier?_body (i : QuotedImport) (ending : List Char) :
    moduleSpecifier? (String.ofList (i.body ++ ending)) = some (String.ofList i.name) := by
  obtain ⟨ending', htrim⟩ := i.exists_trim_text ending
  have hread : quotedModule? (i.body ++ ending') = some i.name :=
    quotedModule?_text { i with ending := ending' }
  simp only [moduleSpecifier?, String.toList_ofList]
  rw [htrim, hread, Option.some_or, Option.bind_some, if_neg (by simpa using i.name_ne_nil)]

/-- A line with the closing quote keeps it. -/
theorem exists_statementText (i : QuotedImport) (ending : List Char) :
    ∃ ending', statementText (i.body ++ ending) = some (String.ofList (i.body ++ ending')) := by
  have hlast : ∀ c ∈ i.body.getLast?, c ≠ ';' := by
    intro c hc
    rw [getLast?_body, Option.mem_some_iff] at hc
    rintro rfl
    exact absurd (hc ▸ i.closing_quotes) (by decide)
  obtain ⟨between, hsemicolons⟩ := exists_dropSemicolons_append hlast ending
  obtain ⟨ending', htrim⟩ := i.exists_trim_text between
  have hquote : i.closing ∈ i.body ++ ending' :=
    List.mem_append_left _ (List.mem_of_getLast? i.getLast?_body)
  -- An import has a quote, which no bare word has.
  have hbare : ∀ word ∈ bareWords, Unquoted word.toList := by decide
  refine ⟨ending', ?_⟩
  rw [statementText_eq, hsemicolons, htrim, if_neg]
  intro hmem
  have hunquoted := hbare _ hmem
  rw [String.toList_ofList] at hunquoted
  have hboth := i.closing_quotes
  rw [hunquoted _ hquote] at hboth
  cases hboth

/-- The line that is kept of a statement is the start of the line with single spaces. -/
theorem exists_importLine_text (i : QuotedImport) :
    ∃ ending, importLine i.text = (i.line ++ ending).take 240 := by
  obtain ⟨ending, htrim⟩ := i.exists_trim_text i.ending
  refine ⟨Text.singleSpaced ending, ?_⟩
  rw [importLine, Text.joinWith_words (Text.isTrimmed_trim i.text), text, htrim,
    singleSpaced_body_append, text, body_spaced]
  rfl

end QuotedImport

/-! ### Lines that are cut -/

/-- Only blanks and semicolons are cut off, and only at the end of a line. -/
theorem exists_cleaned {c : Char} (hc : Text.isBlank c = false) (hc' : c ≠ ';') (s : List Char) :
    ∃ kept cut, Text.trim (dropSemicolons (c :: s)) = c :: kept ∧ c :: s = c :: kept ++ cut ∧
      ∀ d ∈ cut, isDotted d = false := by
  have hsolid : ∀ d ∈ [c].head?, Text.isBlank d = false := by
    rintro _ ⟨⟩
    exact hc
  have hsemicolon : ∀ d ∈ [c].getLast?, d ≠ ';' := by
    rintro _ ⟨⟩
    exact hc'
  -- First the semicolons go, and then the blanks in front of them.
  obtain ⟨line, hline⟩ := exists_dropSemicolons_append hsemicolon s
  obtain ⟨kept, hkept⟩ := exists_trim_append hsolid (List.cons_ne_nil c []) hsolid line
  have hstart : Text.trimStart ([c] ++ line) = [c] ++ line :=
    List.dropWhile_cons_of_neg (by simp [hc])
  have hsemicolons : dropSemicolons ([c] ++ s) ++ ([c] ++ s).rtakeWhile (· == ';') = [c] ++ s :=
    List.rdropWhile_append_rtakeWhile
  have hblanks : Text.trim ([c] ++ line) ++ ([c] ++ line).rtakeWhile Text.isBlank = [c] ++ line := by
    rw [Text.trim, hstart]
    exact List.rdropWhile_append_rtakeWhile
  rw [hkept] at hblanks
  rw [hline, ← hblanks, List.append_assoc] at hsemicolons
  refine ⟨kept, ([c] ++ line).rtakeWhile Text.isBlank ++ ([c] ++ s).rtakeWhile (· == ';'), ?_,
    hsemicolons.symm, fun d hd => ?_⟩
  · exact (congrArg Text.trim hline).trans hkept
  · rcases List.mem_append.mp hd with hd | hd
    · by_contra hdotted
      have hblank := List.mem_rtakeWhile_imp hd
      rw [isBlank_of_isDotted (by simpa using hdotted)] at hblank
      cases hblank
    · obtain rfl : d = ';' := by simpa using List.mem_rtakeWhile_imp hd
      decide

/-- Of a line that begins with an `i` and lacks a quote, only the dotted name behind `import` can be
read. -/
theorem moduleSpecifier?_of_countP (htrimmed : Text.IsTrimmed ('i' :: s))
    (hquotes : ('i' :: s).countP isQuote ≤ 1) :
    moduleSpecifier? (String.ofList ('i' :: s)) =
      (plainImport? ('i' :: s)).map String.ofList := by
  have htrim : Text.trim ('i' :: s) = 'i' :: s := by
    have hcore : Text.trim ([] ++ 'i' :: s ++ []) = 'i' :: s :=
      Text.trim_between (by simp) htrimmed (by simp)
    rwa [List.nil_append, List.append_nil] at hcore
  have hquoted : quotedModule? ('i' :: s) = none := by
    rw [Option.eq_none_iff_forall_not_mem]
    intro found hfound
    have htwo := two_le_countP_of_quotedModule? hfound
    omega
  -- The other readers look for words that do not begin with an i.
  have hfrom : fromImport? ('i' :: s) = none := rfl
  have hpath : pathModule? ('i' :: s) = none := rfl
  simp only [moduleSpecifier?, String.toList_ofList]
  rw [htrim, hquoted, Option.none_or, dottedModule?, hfrom, Option.none_or, hpath, Option.or_none]
  cases hplain : plainImport? ('i' :: s) with
  | none => rfl
  | some found =>
    obtain ⟨-, -, -, hne, -⟩ := plainImport?_eq_some_iff.mp hplain
    rw [Option.bind_some, if_neg (by simpa using hne), Option.map_some]

/-- Of a statement that lost a quote, the dotted name behind `import` is read. -/
theorem moduleSpecifier?_cut (hquotes : ('i' :: s).countP isQuote ≤ 1) :
    (statementText ('i' :: s)).bind moduleSpecifier? =
      (plainImport? ('i' :: s)).map String.ofList := by
  obtain ⟨kept, cut, hkept, hsplit, hcut⟩ := exists_cleaned (by decide : Text.isBlank 'i' = false)
    (by decide) s
  have hfewer : ('i' :: kept).countP isQuote ≤ 1 := by
    rw [hsplit, List.countP_append] at hquotes
    omega
  rw [statementText_eq, hkept, hsplit, plainImport?_append hcut]
  split
  · next hbare =>
    -- Nothing follows a bare keyword.
    have hnone : ∀ word ∈ bareWords, plainImport? word.toList = none := by decide
    have hkeyword := hnone _ hbare
    rw [String.toList_ofList] at hkeyword
    rw [hkeyword]
    rfl
  · rw [Option.bind_some]
    exact moduleSpecifier?_of_countP (hkept ▸ Text.isTrimmed_trim _) hfewer

namespace QuotedImport

/-- A part of the statement that lacks the closing quote has at most one quote. -/
theorem countP_isQuote_le (i : QuotedImport) (h : t <+: i.body)
    (hlt : t.length < i.body.length) : t.countP isQuote ≤ 1 := by
  have hnone (u : List Char) (hu : Unquoted u) : u.countP isQuote = 0 := by
    rw [List.countP_eq_zero]
    exact fun c hc => by simp [hu c hc]
  have hbody : i.body = (i.beginning ++ i.opening :: i.name) ++ [i.closing] := by simp [body]
  rw [hbody, List.prefix_concat_iff] at h
  rcases h with rfl | h
  · rw [hbody] at hlt
    omega
  · have hle := h.sublist.countP_le (p := isQuote)
    rw [List.countP_append, List.countP_cons_of_pos i.opening_quotes,
      hnone _ i.beginning_unquoted, hnone _ i.name_unquoted] at hle
    exact hle

/-- What is read of the statement: its module with single spaces, if the closing quote is among the
first 240 characters of the line with single spaces; else only the dotted name behind `import`. -/
def named? (i : QuotedImport) : Option (List Char) :=
  if i.line.length ≤ 240 then some (Text.singleSpaced i.name) else plainImport? (i.line.take 240)

/-- From the line of an import its module is told as far as the line holds it. -/
theorem moduleSpecifier?_importLine (i : QuotedImport) :
    (statementText (importLine i.text)).bind moduleSpecifier? = i.named?.map String.ofList := by
  obtain ⟨ending, hline⟩ := i.exists_importLine_text
  rw [hline, named?]
  -- A line that fits is whole, and one that does not has lost its closing quote.
  by_cases hfits : i.line.length ≤ 240
  · obtain ⟨ending', hkept⟩ := (i.spaced []).exists_statementText (ending.take (240 - i.line.length))
    have hmodule := (i.spaced []).moduleSpecifier?_body ending'
    rw [body_spaced] at hkept hmodule
    rw [if_pos hfits, List.take_append, List.take_of_length_le hfits, hkept, Option.bind_some,
      hmodule]
    rfl
  · have hcut : (i.line ++ ending).take 240 = i.line.take 240 :=
      List.take_append_of_le_length (by omega)
    have hquotes : (i.line.take 240).countP isQuote ≤ 1 := by
      refine (i.spaced []).countP_isQuote_le ?_ ?_ <;> rw [body_spaced]
      · exact List.take_prefix 240 i.line
      · rw [List.length_take]
        omega
    obtain ⟨rest, hrest⟩ : ∃ rest, i.line.take 240 = 'i' :: rest := ⟨_, rfl⟩
    rw [if_neg hfits, hcut, hrest]
    exact moduleSpecifier?_cut (hrest ▸ hquotes)

end QuotedImport

/-- The same of a node with this text. -/
theorem QuotedImport.moduleSpecifier?_importText (i : QuotedImport) {source : Source} {t : Tree}
    (htext : t.text? source.bytes = some (String.ofList i.text)) :
    (t.importText? source).bind moduleSpecifier? = i.named?.map String.ofList := by
  rw [Tree.importText?, htext, Option.bind_some, String.toList_ofList,
    i.moduleSpecifier?_importLine]

/-! ### Files -/

/-- The imports of an outline are those of the topmost statements, in order. -/
theorem Outline.imports_ofTree (file language content : String) (t : Tree) :
    (Outline.ofTree file language content t).imports = (t.topmost Tree.isStatement).flatMap
      fun n => (n.tree.ownStatement ⟨file, content.toUTF8⟩).imports :=
  Tree.imports_eq_flatMap ⟨file, content.toUTF8⟩ t

variable {parser : Parser} {file language content : String} {t : Tree} {n : Tree.Node}

/-- **The module that a file imports.** An import statement of a parsed file, with its module in
quotes and no quotes in the clause before it, names the module as `QuotedImport.named?` tells. So
the module is among those that the file imports if the statement up to the closing quote, with
single spaces, has at most 240 characters and the module has single spaces. -/
theorem imports_namedModule (hparse : parser language file = .ok t)
    (hn : n ∈ t.topmost Tree.isStatement) (hkind : n.tree.kind = "import_statement")
    (i : QuotedImport) (htext : n.tree.text? content.toUTF8 = some (String.ofList i.text)) :
    (n.tree.importText? ⟨file, content.toUTF8⟩).bind moduleSpecifier? =
        i.named?.map String.ofList ∧
      (∀ found ∈ i.named?, String.ofList found ∈
        moduleSpecifiers (Outline.ofFile parser file language content).imports) ∧
      (i.line.length ≤ 240 → Text.singleSpaced i.name = i.name → String.ofList i.name ∈
        moduleSpecifiers (Outline.ofFile parser file language content).imports) := by
  have hread : (n.tree.importText? ⟨file, content.toUTF8⟩).bind moduleSpecifier? =
      i.named?.map String.ofList := i.moduleSpecifier?_importText htext
  have hmem : ∀ found ∈ i.named?, String.ofList found ∈
      moduleSpecifiers (Outline.ofFile parser file language content).imports := by
    intro found hfound
    rw [Option.mem_def.mp hfound, Option.map_some, Option.bind_eq_some_iff] at hread
    obtain ⟨statement, hstatement, hspecifier⟩ := hread
    refine mem_moduleSpecifiers_iff.mpr ⟨statement, ?_, hspecifier⟩
    have himport : isImportKind n.tree.kind = true := by rw [hkind]; decide
    rw [Outline.ofFile, hparse]
    -- The statement is found among those of its own node.
    refine (Outline.imports_ofTree file language content t).symm ▸
      List.mem_flatMap.mpr ⟨n, hn, ?_⟩
    rw [Tree.ownStatement, if_pos himport, hstatement]
    exact List.mem_singleton_self statement
  refine ⟨hread, hmem, fun hfits hname => hmem i.name ?_⟩
  rw [QuotedImport.named?, if_pos hfits, hname]
  rfl

/-- The statement `import { a } from "./a";`. -/
def shortImport : QuotedImport where
  clause := " \x7b a \x7d ".toList
  gap := [' ']
  opening := '"'
  name := "./a".toList
  closing := '"'
  ending := [';']
  clause_unquoted := by decide
  gap_blank := by decide
  opening_quotes := by decide
  name_ne_nil := by decide
  name_unquoted := by decide
  closing_quotes := by decide

/-- The tree of `shortImport`. -/
def Tree.shortImport : Tree :=
  phrase "program" none 0 24 [phrase "import_statement" none 0 24 [token "import" 0,
    phrase "import_clause" none 7 12 [phrase "named_imports" none 7 12 [token "\x7b" 7,
      phrase "import_specifier" none 9 10 [phrase "identifier" (some "name") 9 10 []],
      token "\x7d" 11]],
    token "from" 13,
    phrase "string" (some "source") 18 23 [token "\"" 18, phrase "string_fragment" none 19 22 [],
      token "\"" 22],
    token ";" 23]]

/-- A short statement names its module. -/
theorem imports_namedModule_short :
    let parser := Parser.ofTrees Grammars.bundled [("b.ts", Tree.shortImport)]
    let content := String.ofList shortImport.text
    parser "typescript" "b.ts" = .ok Tree.shortImport ∧
      (∃ n ∈ Tree.shortImport.topmost Tree.isStatement, n.tree.kind = "import_statement" ∧
        n.tree.text? content.toUTF8 = some (String.ofList shortImport.text)) ∧
      "./a" ∈ moduleSpecifiers (Outline.ofFile parser "b.ts" "typescript" content).imports := by
  intro parser content
  have hparse : parser "typescript" "b.ts" = .ok Tree.shortImport := rfl
  obtain ⟨n, hn, hkind, htext⟩ :
      ∃ n ∈ Tree.shortImport.topmost Tree.isStatement, n.tree.kind = "import_statement" ∧
        n.tree.text? content.toUTF8 = some (String.ofList shortImport.text) := by decide +kernel
  have hfits : shortImport.line.length ≤ 240 := by decide +kernel
  have hname : Text.singleSpaced shortImport.name = shortImport.name := by decide +kernel
  exact ⟨hparse, ⟨n, hn, hkind, htext⟩,
    (imports_namedModule hparse hn hkind shortImport htext).2.2 hfits hname⟩

/-! ### A module that is lost -/

/-- The names `renderPageA` to `renderPageR`. -/
def pageNames : List (List Char) :=
  (List.range 18).map fun i => "renderPage".toList ++ [Char.ofNat (65 + i)]

/-- A statement over twenty lines, with a name on each line between the first and the last. -/
def longImport : QuotedImport where
  clause := " \x7b\n  ".toList ++ Text.joinWith ",\n  ".toList pageNames ++ "\n\x7d ".toList
  gap := [' ']
  opening := '"'
  name := "./pages".toList
  closing := '"'
  ending := [';']
  clause_unquoted := by decide +kernel
  gap_blank := by decide
  opening_quotes := by decide
  name_ne_nil := by decide
  name_unquoted := by decide
  closing_quotes := by decide

/-- The tree of `longImport`. -/
def Tree.longImport : Tree :=
  let leaf (kind : String) (isNamed : Bool) (field : Option String) (start stop row : Nat) : Tree :=
    .node kind isNamed field ⟨start, stop, row, row⟩ []
  let specifier (i : Nat) : List Tree :=
    [.node "import_specifier" true none ⟨11 + 15 * i, 22 + 15 * i, i + 1, i + 1⟩
      [leaf "identifier" true (some "name") (11 + 15 * i) (22 + 15 * i) (i + 1)]]
  let comma (i : Nat) : List Tree := [leaf "," false none (22 + 15 * i) (23 + 15 * i) (i + 1)]
  .node "program" true none ⟨0, 295, 0, 19⟩ [.node "import_statement" true none ⟨0, 295, 0, 19⟩ [
    token "import" 0,
    .node "import_clause" true none ⟨7, 279, 0, 19⟩ [
      .node "named_imports" true none ⟨7, 279, 0, 19⟩ (token "\x7b" 7 ::
        (List.range 17).flatMap (fun i => specifier i ++ comma i) ++ specifier 17 ++
          [leaf "\x7d" false none 278 279 19])],
    leaf "from" false none 280 284 19,
    .node "string" true (some "source") ⟨285, 294, 19, 19⟩ [leaf "\"" false none 285 286 19,
      leaf "string_fragment" true none 286 293 19, leaf "\"" false none 293 294 19],
    leaf ";" false none 294 295 19]]

/-- The text of a node that covers the whole of a file. -/
theorem Tree.text?_whole {t : Tree} {content : String} (hstart : t.span.startByte = 0)
    (hstop : t.span.endByte = content.utf8ByteSize) : t.text? content.toUTF8 = some content := by
  rw [Tree.text?, hstart, hstop, String.toUTF8_eq_toByteArray, ← String.size_toByteArray,
    ByteArray.extract_zero_size, String.fromUTF8?, dif_pos content.isValidUTF8]
  rfl

/-- Where all statements of a file are one import statement, nothing else is read. -/
theorem named?_of_mem_modules {m : String} (i : QuotedImport)
    (honly : ∀ n ∈ t.topmost Tree.isStatement, isImportKind n.tree.kind = true ∧
      n.tree.text? content.toUTF8 = some (String.ofList i.text))
    (hm : m ∈ moduleSpecifiers (Outline.ofTree file language content t).imports) :
    i.named?.map String.ofList = some m := by
  obtain ⟨statement, himports, hspecifier⟩ := mem_moduleSpecifiers_iff.mp hm
  rw [Outline.imports_ofTree, List.mem_flatMap] at himports
  obtain ⟨n, hn, hown⟩ := himports
  obtain ⟨himport, htext⟩ := honly n hn
  rw [Tree.ownStatement, if_pos himport, Option.mem_toList] at hown
  have hread : (n.tree.importText? ⟨file, content.toUTF8⟩).bind moduleSpecifier? =
      i.named?.map String.ofList := i.moduleSpecifier?_importText htext
  rw [← hread, hown, Option.bind_some, hspecifier]

/-- The module of a long statement is lost. -/
theorem longImport_losesModule :
    let content := String.ofList longImport.text
    (∃ n ∈ Tree.longImport.topmost Tree.isStatement, n.tree.kind = "import_statement" ∧
        n.tree.text? content.toUTF8 = some content) ∧
      "./pages" ∉ moduleSpecifiers
        (Outline.ofTree "b.ts" "typescript" content Tree.longImport).imports := by
  intro content
  have hsize : content.utf8ByteSize = 295 := by
    rw [String.utf8ByteSize_ofList]
    decide +kernel
  have hspan : ∀ n ∈ Tree.longImport.topmost Tree.isStatement, n.tree.kind = "import_statement" ∧
      n.tree.span.startByte = 0 ∧ n.tree.span.endByte = 295 := by decide +kernel
  have htext : ∀ n ∈ Tree.longImport.topmost Tree.isStatement,
      n.tree.text? content.toUTF8 = some content := fun n hn =>
    Tree.text?_whole (hspan n hn).2.1 ((hspan n hn).2.2.trans hsize.symm)
  constructor
  · obtain ⟨n, hn⟩ : ∃ n, n ∈ Tree.longImport.topmost Tree.isStatement :=
      List.exists_mem_of_ne_nil _ (by decide +kernel)
    exact ⟨n, hn, (hspan n hn).1, htext n hn⟩
  · intro hmem
    -- The clause begins with no name that could be read in place of the module.
    have hnone : longImport.named? = none := by decide +kernel
    have hkind : isImportKind "import_statement" = true := by decide
    have hread := named?_of_mem_modules longImport
      (fun n hn => ⟨(hspan n hn).1 ▸ hkind, htext n hn⟩) hmem
    rw [hnone] at hread
    cases hread

end GuidedTour
