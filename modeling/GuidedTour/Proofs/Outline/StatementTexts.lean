import GuidedTour.Proofs.Outline.Statements
import GuidedTour.Proofs.SingleSpaces

namespace GuidedTour

/-!
# Which statements are kept, and what is kept of them

* `Tree.Node.IsExposed` — a node below the root that is reached through named nodes which are no
  statements;
* `Tree.importNodes`, `Tree.exportNodes` — the exposed nodes that are imports, and those that are
  exports and no imports, in preorder;
* `IsCleaned` — a line without the semicolons at its end, and then without the blanks there;
* `cleaned_importLine_iff`, `cleaned_exportLine_iff` — an import statement is cleaned as one line
  with single spaces, cut after 240 characters, and an export statement as its first line;
* `statements_kept` — the statements of a file.
-/

namespace Tree

variable {t : Tree} {n m : Node}

/-! ### Nodes -/

/-- A named node below the root, with nothing between it and the root but named nodes that are no
statements. -/
structure Node.IsExposed (n : Node) : Prop where
  named : n.tree.isNamed = true
  belowRoot : n.ancestors ≠ []
  through : ∀ a ∈ n.between, a.tree.isNamed = true ∧ isImportKind a.tree.kind = false ∧
    isExportKind a.tree.kind = false

/-- A node is exposed if everything between it and the root is named and no statement. -/
theorem Node.isExposed_iff : n.IsExposed ↔ n.tree.isNamed = true ∧ n.ancestors ≠ [] ∧
    ∀ a ∈ n.between, a.tree.isNamed = true ∧ isImportKind a.tree.kind = false ∧
      isExportKind a.tree.kind = false :=
  ⟨fun h => ⟨h.named, h.belowRoot, h.through⟩, fun ⟨hnamed, hroot, hthrough⟩ =>
    ⟨hnamed, hroot, hthrough⟩⟩

instance : Decidable n.IsExposed := decidable_of_iff' _ Node.isExposed_iff

/-- The import statements of a tree, in preorder. -/
def importNodes (t : Tree) : List Node :=
  t.nodes.filter fun n => n.IsExposed ∧ isImportKind n.tree.kind = true

/-- The export statements of a tree, in preorder. What is both is an import. -/
def exportNodes (t : Tree) : List Node :=
  t.nodes.filter fun n => n.IsExposed ∧ isExportKind n.tree.kind = true ∧
    isImportKind n.tree.kind = false

/-- The walk finds the exposed imports and exports. -/
theorem Node.isFound_isStatement_iff : n.isFound isStatement = true ↔
    n.IsExposed ∧ (isImportKind n.tree.kind = true ∨ isExportKind n.tree.kind = true) := by
  rw [isFound, Bool.and_eq_true, decide_eq_true_eq, isTopmost_iff, isExposed_iff]
  simp only [isStatement, Bool.or_eq_true, Bool.or_eq_false_iff]
  tauto

theorem importNodes_eq (t : Tree) :
    t.importNodes = (t.topmost isStatement).filter fun n => isImportKind n.tree.kind := by
  rw [importNodes, topmost, List.filter_filter]
  refine List.filter_congr fun n _ => ?_
  rw [Bool.eq_iff_iff, decide_eq_true_eq, Bool.and_eq_true, Node.isFound_isStatement_iff]
  tauto

/-- The exports are the topmost statements that are not imports. -/
theorem exportNodes_eq (t : Tree) :
    t.exportNodes = (t.topmost isStatement).filter fun n => !isImportKind n.tree.kind := by
  rw [exportNodes, topmost, List.filter_filter]
  refine List.filter_congr fun n _ => ?_
  rw [Bool.eq_iff_iff, decide_eq_true_eq, Bool.and_eq_true, Node.isFound_isStatement_iff,
    Bool.not_eq_true']
  cases isImportKind n.tree.kind <;> simp

/-- No statement is inside another one. -/
theorem notMem_ancestors_of_mem_topmost {stops : Tree → Bool} (hn : n ∈ t.topmost stops)
    (hm : m ∈ t.topmost stops) : n ∉ m.ancestors := by
  intro hinside
  obtain ⟨-, hn⟩ := List.mem_filter.mp hn
  obtain ⟨hmem, hm⟩ := List.mem_filter.mp hm
  have hstops := (Node.isTopmost_of_isFound hn).ofKind
  have hlooked := (Node.isTopmost_of_isFound hm).isTransparent hmem hinside
    (Node.isTopmost_of_isFound hn).belowRoot
  rw [(hlooked.transparent n List.mem_cons_self).2] at hstops
  cases hstops

/-! ### Texts -/

/-- A line of a statement, cleaned. -/
def cleaned (line : List Char → List Char) (s : String) : String :=
  String.ofList (Text.trim (dropSemicolons (line s.toList)))

/-- The statements that some nodes of a file give: their texts, cleaned, but for bare words. -/
def kept (bytes : ByteArray) (line : List Char → List Char) (nodes : List Node) : List String :=
  ((nodes.filterMap fun n => n.tree.text? bytes).map (cleaned line)).filter (· ∉ bareWords)

variable {bytes : ByteArray} {line : List Char → List Char} {s : String}

/-- The walk leaves out a text that is one of the bare words, and keeps all others in order. -/
theorem flatMap_statementText (bytes : ByteArray) (line : List Char → List Char)
    (p : Node → Bool) (nodes : List Node) :
    nodes.flatMap (fun n => if p n then
        ((n.tree.text? bytes).bind fun s => statementText (line s.toList)).toList else []) =
      kept bytes line (nodes.filter p) := by
  induction nodes with
  | nil => rfl
  | cons n nodes ih =>
    rw [List.flatMap_cons, ih]
    cases hp : p n with
    | false => simp [hp]
    | true =>
      cases htext : n.tree.text? bytes with
      | none => simp [hp, htext, kept]
      | some s =>
        -- A text that is read is dropped if nothing but a bare word is left of it.
        by_cases hbare : cleaned line s ∈ bareWords <;>
          simp_all [kept, statementText_eq, cleaned]

/-- The imports of an outline are the texts kept of its import nodes. -/
theorem imports_eq_kept (source : Source) (t : Tree) :
    (t.statements source).imports = kept source.bytes importLine t.importNodes := by
  rw [imports_eq_flatMap, importNodes_eq, ← flatMap_statementText]
  refine List.flatMap_congr fun n _ => ?_
  rw [ownStatement]
  split <;> rfl

/-- The exports of an outline are the texts kept of its export nodes. -/
theorem exports_eq_kept (source : Source) (t : Tree) :
    (t.statements source).exports = kept source.bytes exportLine t.exportNodes := by
  rw [exports_eq_flatMap, exportNodes_eq, ← flatMap_statementText]
  refine List.flatMap_congr fun n _ => ?_
  rw [ownStatement]
  cases isImportKind n.tree.kind <;> rfl

/-! ### Cleaning -/

/-- `clean` is a line without the semicolons at its end and then without the blanks there. -/
def IsCleaned (line clean : List Char) : Prop :=
  ∃ blanks semicolons, line = clean ++ blanks ++ semicolons ∧
    (∀ c ∈ semicolons, c = ';') ∧ (∀ c ∈ (clean ++ blanks).getLast?, c ≠ ';') ∧
    (∀ c ∈ blanks, Text.isBlank c = true) ∧ ∀ c ∈ clean.getLast?, Text.isBlank c = false

/-- A text is cleaned by dropping its last semicolons and trimming it. -/
theorem isCleaned_iff {l clean : List Char} (hfirst : ∀ c ∈ l.head?, Text.isBlank c = false) :
    IsCleaned l clean ↔ clean = Text.trim (dropSemicolons l) := by
  -- What is left of the line begins as the line does, with no blank.
  have hstart : Text.trimStart (dropSemicolons l) = dropSemicolons l := by
    obtain ⟨cut, hcut⟩ : dropSemicolons l <+: l := List.rdropWhile_prefix _ _
    cases hleft : dropSemicolons l with
    | nil => rfl
    | cons c rest =>
      refine List.dropWhile_cons_of_neg ?_
      simp [hfirst c (by rw [← hcut, hleft]; rfl)]
  have htrim :
      Text.trim (dropSemicolons l) = (l.rdropWhile (· == ';')).rdropWhile Text.isBlank := by
    rw [Text.trim, hstart]
    rfl
  rw [htrim]
  constructor
  · rintro ⟨blanks, semicolons, hl, hsemicolons, hsolid, hblanks, hlast⟩
    have hinner : clean ++ blanks = l.rdropWhile (· == ';') :=
      Text.eq_rdropWhile_iff.mpr ⟨semicolons, hl, by simpa using hsemicolons, by simpa using hsolid⟩
    exact Text.eq_rdropWhile_iff.mpr ⟨blanks, hinner.symm, hblanks, hlast⟩
  · intro hclean
    obtain ⟨blanks, hinner, hblanks, hlast⟩ := Text.eq_rdropWhile_iff.mp hclean
    obtain ⟨semicolons, hl, hsemicolons, hsolid⟩ := Text.eq_rdropWhile_iff.mp hinner.symm
    exact ⟨blanks, semicolons, hl, by simpa using hsemicolons, by simpa using hsolid, hblanks,
      hlast⟩

/-- An import is put on one line and cut. -/
theorem importLine_eq (s : List Char) :
    importLine s = (Text.singleSpaced (Text.trim s)).take 240 := by
  rw [importLine, Text.joinWith_words (Text.isTrimmed_trim s)]
  rfl

/-- Of an export the first line is taken. -/
theorem exportLine_eq (s : List Char) :
    exportLine s = Text.trim ((Text.trim s).takeWhile (· != '\n')) := by
  obtain ⟨ending, hending, hline⟩ := Text.exists_head?_lines (Text.trim s)
  rw [exportLine, hline]
  refine (Text.trim_append_blanks _ fun c hc => ?_).symm
  obtain rfl | rfl := hending
  · exact absurd hc List.not_mem_nil
  · obtain rfl := List.mem_singleton.mp hc
    decide

/-- An import statement is put on one line with single spaces and cut after 240 characters, and then
the line is cleaned. -/
theorem cleaned_importLine_iff {clean : List Char} :
    clean = (cleaned importLine s).toList ↔
      IsCleaned ((Text.singleSpaced (Text.trim s.toList)).take 240) clean := by
  rw [isCleaned_iff, ← importLine_eq, cleaned, String.toList_ofList]
  rw [List.head?_take, if_neg (by decide)]
  exact Text.isBlank_of_head?_singleSpaced (Text.isTrimmed_trim _).first

/-- Of an export statement the first line is cleaned. -/
theorem cleaned_exportLine_iff {clean : List Char} :
    clean = (cleaned exportLine s).toList ↔
      IsCleaned (Text.trim ((Text.trim s.toList).takeWhile (· != '\n'))) clean := by
  rw [isCleaned_iff (Text.isTrimmed_trim _).first, ← exportLine_eq, cleaned, String.toList_ofList]

/-- Cleaning only takes off the ends of a line. -/
theorem cleaned_isInfix : (cleaned line s).toList <:+: line s.toList := by
  rw [cleaned, String.toList_ofList]
  exact (Text.trim_isInfix _).trans (List.rdropWhile_prefix _ _).isInfix

/-- A kept statement is the cleaned text of some node, and no bare word. -/
theorem mem_kept {nodes : List Node} {statement : String} (h : statement ∈ kept bytes line nodes) :
    statement ∉ bareWords ∧ ∃ s, statement = cleaned line s := by
  obtain ⟨hmem, hbare⟩ := List.mem_filter.mp h
  obtain ⟨s, -, rfl⟩ := List.mem_map.mp hmem
  exact ⟨by simpa using hbare, s, rfl⟩

/-- No import is longer than the cut. -/
theorem length_cleaned_importLine_le : (cleaned importLine s).length ≤ 240 := by
  rw [← String.length_toList]
  refine cleaned_isInfix.length_le.trans ?_
  rw [importLine_eq]
  exact List.length_take_le _ _

/-- No import has two blanks in a row. -/
theorem hasSingleSpaces_cleaned_importLine :
    Text.HasSingleSpaces (cleaned importLine s).toList := by
  refine Text.HasSingleSpaces.of_isInfix ?_ cleaned_isInfix
  rw [importLine_eq]
  exact (Text.hasSingleSpaces_singleSpaced _).of_isInfix (List.take_prefix _ _).isInfix

/-- No export has a line feed. -/
theorem newline_notMem_cleaned_exportLine : '\n' ∉ (cleaned exportLine s).toList := by
  intro hmem
  have hline := cleaned_isInfix.subset hmem
  rw [exportLine_eq] at hline
  simpa using List.all_eq_true.mp List.all_takeWhile '\n' ((Text.trim_isInfix _).subset hline)

end Tree

open GuidedTour.Tree (kept cleaned IsCleaned importLine exportLine)

/-- **The statements that are kept of a file**, in preorder, are the cleaned texts of its exposed
imports, and of its exposed exports that are no imports, but for bare words. None of these nodes is
inside another, so that nothing is kept twice. What is kept of an import is not empty, has at most
240 characters and no blanks but single spaces; what is kept of an export has no line feed. -/
theorem statements_kept (file language content : String) (t : Tree) :
    let o := Outline.ofTree file language content t
    o.imports = kept content.toUTF8 importLine t.importNodes ∧
      o.exports = kept content.toUTF8 exportLine t.exportNodes ∧
      (∀ n ∈ t.importNodes ++ t.exportNodes, ∀ m ∈ t.importNodes ++ t.exportNodes,
        n ∉ m.ancestors) ∧
      (∀ (s : String) (clean : List Char),
        (clean = (cleaned importLine s).toList ↔
          IsCleaned ((Text.singleSpaced (Text.trim s.toList)).take 240) clean) ∧
        (clean = (cleaned exportLine s).toList ↔
          IsCleaned (Text.trim ((Text.trim s.toList).takeWhile (· != '\n'))) clean)) ∧
      (∀ s ∈ o.imports, s ≠ "" ∧ s.length ≤ 240 ∧ Text.HasSingleSpaces s.toList) ∧
      ∀ s ∈ o.exports, '\n' ∉ s.toList := by
  intro o
  have himports : o.imports = kept content.toUTF8 importLine t.importNodes :=
    Tree.imports_eq_kept ⟨file, content.toUTF8⟩ t
  have hexports : o.exports = kept content.toUTF8 exportLine t.exportNodes :=
    Tree.exports_eq_kept ⟨file, content.toUTF8⟩ t
  -- Both lists of nodes are parts of the list of topmost statements.
  have htopmost : ∀ n ∈ t.importNodes ++ t.exportNodes, n ∈ t.topmost Tree.isStatement := by
    intro n hn
    rw [Tree.importNodes_eq, Tree.exportNodes_eq, List.mem_append] at hn
    exact hn.elim List.mem_of_mem_filter List.mem_of_mem_filter
  refine ⟨himports, hexports, fun n hn m hm =>
    Tree.notMem_ancestors_of_mem_topmost (htopmost n hn) (htopmost m hm),
    fun s clean => ⟨Tree.cleaned_importLine_iff, Tree.cleaned_exportLine_iff⟩, ?_, ?_⟩
  · intro s hs
    obtain ⟨hbare, raw, rfl⟩ := Tree.mem_kept (himports ▸ hs)
    have hempty : cleaned importLine raw ≠ "" := fun h => hbare (h ▸ List.mem_cons_self)
    exact ⟨hempty, Tree.length_cleaned_importLine_le, Tree.hasSingleSpaces_cleaned_importLine⟩
  · intro s hs
    obtain ⟨-, raw, rfl⟩ := Tree.mem_kept (hexports ▸ hs)
    exact Tree.newline_notMem_cleaned_exportLine

/-- An import with two spaces in it, a call of the bare keyword, and an export. -/
def mixedText : String := "import  a from 'x';import('y');export \x7b a \x7d;"

/-- The tree of `mixedText`. -/
def Tree.mixedStatements : Tree :=
  phrase "program" none 0 44 [
    phrase "import_statement" none 0 19 [token "import" 0,
      phrase "import_clause" none 8 9 [phrase "identifier" none 8 9 []], token "from" 10,
      phrase "string" (some "source") 15 18 [], token ";" 18],
    phrase "expression_statement" none 19 31 [
      phrase "call_expression" none 19 30 [phrase "import" (some "function") 19 25 [],
        phrase "arguments" (some "arguments") 25 30 [token "(" 25, phrase "string" none 26 29 [],
          token ")" 29]],
      token ";" 30],
    phrase "export_statement" none 31 44 [token "export" 31,
      phrase "export_clause" none 38 43 [token "\x7b" 38,
        phrase "export_specifier" none 40 41 [phrase "identifier" (some "name") 40 41 []],
        token "\x7d" 42],
      token ";" 43]]

/-- Neither the clauses inside the statements nor the bare keyword are kept. -/
theorem statements_kept_mixed :
    let o := Outline.ofTree "a.js" "javascript" mixedText Tree.mixedStatements
    o.imports = ["import a from 'x'"] ∧ o.exports = ["export \x7b a \x7d"] ∧
      (Tree.mixedStatements.importNodes.map fun n => n.tree.kind) = ["import_statement", "import"] ∧
      (∀ s ∈ o.imports, s ≠ "" ∧ s.length ≤ 240 ∧ Text.HasSingleSpaces s.toList) ∧
      ∀ s ∈ o.exports, '\n' ∉ s.toList := by
  intro o
  obtain ⟨-, -, -, -, himports, hexports⟩ :=
    statements_kept "a.js" "javascript" mixedText Tree.mixedStatements
  exact ⟨by decide +kernel, by decide +kernel, by decide +kernel, himports, hexports⟩

end GuidedTour
