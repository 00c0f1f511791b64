import GuidedTour.Proofs.Digest
import GuidedTour.Proofs.Json.Record
import GuidedTour.Proofs.SortedTable
import GuidedTour.Workspace.Survey

namespace GuidedTour

/-!
# Projects as JSON and back

An element leaves its children out where it has none, and a reader goes only as deep as the document
is nested. Nothing is lost by either.

* `Record.defaulted_of_nonempty?` — a list that is left out where it is empty is read as it was;
* `Element.ofDocumentWithin_json` — an element is read back by every reader that goes as deep as its
  document;
* `Element.isSized_of_ofDocumentWithin` — and every element that is read has lines that fit;
* `Project.IsProper`, `Project.isProper_ofOutlines` — a project whose numbers fit and whose tables
  are in order, as those of outlines always are;
* `Project.ofDocument?_json`, `Project.isProper_of_ofDocument?` — such a project is read back, and
  nothing else is ever read;
* `project_comesBack` — so a project comes back from its JSON exactly if it is proper.
-/

/-! ### Parts of records -/

section Parts

variable {α : Type} {decode : Document → Option α} {r : Record} {name : String}

/-- A record of fields that may be left out gives for each field what it is written with. -/
theorem Record.get?_ofFields (fields : List (String × Option Json))
    (h : (fields.map Prod.fst).Nodup) (name : String) :
    (ofMembers (Json.ofFields fields)).get? name =
      (fields.lookup name).join.map Json.document := by
  rw [get?_ofMembers, Json.lookup_ofFields h]

/-- A list that is left out where it is empty is read back, if each of its items is. -/
theorem Record.defaulted_of_nonempty? {items : List α} {f : α → Json}
    (hget : r.get? name = (Json.nonempty? (items.map f)).map Json.document)
    (h : ∀ a ∈ items, decode (f a).document = some a) :
    r.defaulted name [] (·.list? decode) = some items := by
  unfold defaulted
  cases items with
  | nil => rw [hget]; rfl
  | cons a rest =>
    rw [hget]
    exact Document.list?_of_written h

end Parts

/-! ### Levels -/

/-- Every document has a level. -/
theorem Document.depth_pos (d : Document) : 0 < d.depth := by
  cases d <;> simp [depth]

namespace Json

variable {item : Json} {items : List Json} {m : String × Json} {members : List (String × Json)}

/-- An item is less deep than its array. -/
theorem depth_lt_array (h : item ∈ items) :
    item.document.depth < (array items).document.depth := by
  rw [document, Document.depth, Nat.lt_succ_iff]
  induction items with
  | nil => cases h
  | cons first rest ih =>
    rw [documents, Document.depths]
    rcases List.mem_cons.mp h with rfl | h
    · exact le_max_left _ _
    · exact (ih h).trans (le_max_right _ _)

/-- A member is less deep than its object. -/
theorem depth_lt_object (h : m ∈ members) :
    m.2.document.depth < (object members).document.depth := by
  rw [document, Document.depth, Nat.lt_succ_iff]
  induction members with
  | nil => cases h
  | cons first rest ih =>
    rw [memberDocuments, Document.memberDepths]
    rcases List.mem_cons.mp h with rfl | h
    · exact le_max_left _ _
    · exact (ih h).trans (le_max_right _ _)

end Json

/-! ### Elements -/

/-- The word of a kind is read back. -/
theorem ElementKind.ofWord?_word (kind : ElementKind) : ofWord? kind.word = some kind := by
  cases kind <;> decide

namespace Element

variable {e c : Element}

/-- The fields of an element as they are written. -/
def jsonFields (e : Element) : List (String × Option Json) :=
  [("kind", some (.string e.kind.word)), ("name", some (.string e.name)),
    ("file", some (.string e.file)), ("startLine", some (.nat e.startLine)),
    ("endLine", some (.nat e.endLine)), ("children", Json.nonempty? (e.children.map json))]

theorem jsons_eq_map (elements : List Element) : jsons elements = elements.map json := by
  induction elements with
  | nil => rfl
  | cons e rest ih => rw [jsons, ih, List.map_cons]

/-- An element is written as the object of its fields, less those that have no value. -/
theorem json_eq (e : Element) : e.json = .object (Json.ofFields e.jsonFields) := by
  obtain ⟨kind, name, file, startLine, endLine, children⟩ := e
  rw [json, jsons_eq_map]
  cases children <;> rfl

/-- A written element is read as the record of its fields. -/
theorem record?_json (e : Element) :
    e.json.document.record? fields = some (.ofMembers (Json.ofFields e.jsonFields)) := by
  rw [json_eq]
  exact Document.record?_object (by decide) (Json.keys_ofFields e.jsonFields)

/-- A child is written on a deeper level than the element. -/
theorem depth_json_lt (h : c ∈ e.children) : c.json.document.depth < e.json.document.depth := by
  have hne : (e.children.map json).isEmpty = false := by
    simpa using List.ne_nil_of_mem h
  have hmember : ("children", .array (e.children.map json)) ∈ Json.ofFields e.jsonFields := by
    rw [Json.mem_ofFields]
    simp [jsonFields, Json.nonempty?, hne]
  calc c.json.document.depth
      < (Json.array (e.children.map json)).document.depth :=
        Json.depth_lt_array (List.mem_map_of_mem h)
    _ < e.json.document.depth := by
        rw [json_eq]
        exact Json.depth_lt_object hmember

/-- An element is read back by every reader that goes as deep as its document. -/
theorem ofDocumentWithin_json {depth : Nat} (h : e.IsSized)
    (hdepth : e.json.document.depth ≤ depth) :
    ofDocumentWithin depth e.json.document = some e := by
  induction depth generalizing e with
  | zero => exact absurd hdepth (Nat.not_le.mpr e.json.document.depth_pos)
  | succ depth ih =>
    have hget := Record.get?_ofFields e.jsonFields (by simp [jsonFields])
    -- The children are a level deeper, and so much less deep is what the reader has left for them.
    have hchildren : ∀ c ∈ e.children, ofDocumentWithin depth c.json.document = some c :=
      fun c hc => ih (h.of_mem_children hc)
        (Nat.lt_succ_iff.mp ((depth_json_lt hc).trans_le hdepth))
    have hkind : (Json.string e.kind.word).document.word? ElementKind.ofWord? = some e.kind :=
      ElementKind.ofWord?_word e.kind
    have hlist := Record.defaulted_of_nonempty? (hget "children") hchildren
    rw [ofDocumentWithin, record?_json]
    simp only [Option.bind_eq_bind, Option.bind_some, Record.required_of_get? (hget "kind"),
      hkind, Record.required_of_text (hget "name"), Record.required_of_text (hget "file"),
      Record.required_of_get? (hget "startLine"), Json.nat?_document h.startLine,
      Record.required_of_get? (hget "endLine"), Json.nat?_document h.endLine, hlist,
      Option.pure_def]
    cases e
    rfl

/-- The numbers of an element that is read fit, at each depth. -/
theorem isSized_of_ofDocumentWithin {depth : Nat} {d : Document}
    (h : ofDocumentWithin depth d = some e) : e.IsSized := by
  induction depth generalizing d e with
  | zero => cases h
  | succ depth ih =>
    simp only [ofDocumentWithin, Option.bind_eq_bind, Option.bind_eq_some_iff, Option.pure_def]
      at h
    obtain ⟨r, -, kind, -, name, -, file, -, startLine, hstart, endLine, hend, children, hchildren,
      heq⟩ := h
    obtain rfl := Option.some.inj heq
    obtain ⟨_, hstart⟩ := Record.exists_of_required hstart
    obtain ⟨_, hend⟩ := Record.exists_of_required hend
    refine isSized_iff.mpr ⟨Document.nat?_le hstart, Document.nat?_le hend, fun c hc => ?_⟩
    rcases Record.eq_or_exists_of_defaulted hchildren with rfl | ⟨_, hlist⟩
    · -- no children were given
      cases hc
    · obtain ⟨item, hitem⟩ := Document.exists_of_list? hlist c hc
      exact ih hitem

end Element

/-! ### Outlines -/

namespace Outline

variable {o : Outline}

/-- An outline whose numbers fit is read back. -/
theorem ofDocument?_json (h : o.IsSized) : Outline.ofDocument? o.json.document = some o := by
  have hrecord : o.json.document.record? fields = some (.ofMembers [("file", .string o.file),
      ("language", .string o.language), ("elements", .array (Element.jsons o.elements)),
      ("imports", .texts o.imports), ("exports", .texts o.exports),
      ("lineCount", .nat o.lineCount)]) :=
    Document.record?_object (by decide) (.refl _)
  -- The elements are written with as many levels as they have, and read with at least as many.
  have helements : (Json.array (Element.jsons o.elements)).document.list? Element.ofDocument? =
      some o.elements := by
    rw [Element.jsons_eq_map]
    exact Document.list?_of_written fun e he =>
      Element.ofDocumentWithin_json (h.elements e he) le_rfl
  simp [Outline.ofDocument?, hrecord, Record.defaulted, Record.required, Record.get?_ofMembers,
    List.lookup_cons, Json.text?_document, helements, Document.list?_texts,
    Json.nat?_document h.lineCount]

/-- The numbers of an outline that is read fit. -/
theorem isSized_of_ofDocument? {d : Document} (h : Outline.ofDocument? d = some o) :
    o.IsSized := by
  simp only [Outline.ofDocument?, Option.bind_eq_bind, Option.bind_eq_some_iff, Option.pure_def]
    at h
  obtain ⟨r, -, file, -, language, -, elements, helements, imports, -, exports, -, lineCount,
    hcount, heq⟩ := h
  obtain rfl := Option.some.inj heq
  -- Only the number of lines and the elements have numbers.
  constructor
  · rcases Record.eq_or_exists_of_defaulted hcount with rfl | ⟨_, hcount⟩
    · exact Nat.zero_le _
    · exact Document.nat?_le hcount
  · intro e he
    obtain ⟨item, hitem⟩ := Record.exists_of_required_list? helements e he
    exact Element.isSized_of_ofDocumentWithin hitem

end Outline

/-! ### Projects -/

/-- A project whose numbers fit in 64 bits, with entry points and dependencies in order and without
repetition. -/
structure Project.IsProper (p : Project) : Prop where
  sized : p.IsSized
  entryPoints : p.entryPoints.Pairwise (· < ·)
  dependencies : IsSorted p.dependencies

instance (p : Project) : Decidable p.IsProper :=
  decidable_of_iff (p.IsSized ∧ p.entryPoints.Pairwise (· < ·) ∧ IsSorted p.dependencies)
    ⟨fun h => ⟨h.1, h.2.1, h.2.2⟩, fun h => ⟨h.sized, h.entryPoints, h.dependencies⟩⟩

namespace Project

variable {p : Project}

/-- The project that outlines make is proper as soon as their numbers fit. -/
theorem isProper_ofOutlines {root : String} {outlines : List Outline} :
    (ofOutlines root outlines).IsProper ↔ ∀ o ∈ outlines, o.IsSized :=
  ⟨fun h => h.sized.files,
    fun h => ⟨⟨h⟩, pairwise_orderedTexts _, isSorted_orderedEntries _⟩⟩

/-- The table of dependencies as JSON. -/
def dependenciesJson (entries : List (String × List String)) : Json :=
  .object (entries.map fun entry => (entry.1, .texts entry.2))

/-- A table in order is read back as it was. -/
theorem dependencies?_json {entries : List (String × List String)} (h : IsSorted entries) :
    dependencies? (dependenciesJson entries).document = some entries := by
  rw [dependenciesJson, Json.document, Json.memberDocuments_eq_map, List.map_map, dependencies?]
  refine Option.bind_eq_some_iff.mpr
    ⟨entries, ?_, congrArg some (orderedEntries_eq_self_iff.mpr h)⟩
  rw [mapM_eq_some_iff, List.forall₂_map_left_iff, List.forall₂_same]
  intro entry _
  simp [Document.list?_texts]

/-- Dependencies that are read are sorted. -/
theorem isSorted_of_dependencies? {d : Document} {entries : List (String × List String)}
    (h : dependencies? d = some entries) : IsSorted entries := by
  unfold dependencies? at h
  split at h
  · obtain ⟨given, -, heq⟩ := Option.bind_eq_some_iff.mp h
    obtain rfl := Option.some.inj heq
    exact isSorted_orderedEntries given
  · cases h

/-- A proper project is read back. -/
theorem ofDocument?_json (h : p.IsProper) : Project.ofDocument? p.json.document = some p := by
  have hrecord : p.json.document.record? fields = some (.ofMembers [("root", .string p.root),
      ("files", .array (p.files.map Outline.json)), ("entryPoints", .texts p.entryPoints),
      ("dependencies", dependenciesJson p.dependencies)]) :=
    Document.record?_object (by decide) (.refl _)
  have hfiles : (Json.array (p.files.map Outline.json)).document.list? Outline.ofDocument? =
      some p.files :=
    Document.list?_of_written fun o ho => Outline.ofDocument?_json (h.sized.files o ho)
  -- Entry points are put in order once more when they are read, which they are already.
  simp [Project.ofDocument?, hrecord, Record.required, Record.get?_ofMembers, List.lookup_cons,
    Json.text?_document, hfiles, Document.list?_texts, dependencies?_json h.dependencies,
    orderedTexts_eq_self_iff.mpr h.entryPoints]

/-- A project that is read is proper. -/
theorem isProper_of_ofDocument? {d : Document} (h : Project.ofDocument? d = some p) :
    p.IsProper := by
  simp only [Project.ofDocument?, Option.bind_eq_bind, Option.bind_eq_some_iff, Option.pure_def]
    at h
  obtain ⟨r, -, root, -, files, hfiles, entryPoints, -, dependencies, hdependencies, heq⟩ := h
  obtain rfl := Option.some.inj heq
  obtain ⟨_, hdependencies⟩ := Record.exists_of_required hdependencies
  refine ⟨⟨fun o ho => ?_⟩, pairwise_orderedTexts entryPoints,
    isSorted_of_dependencies? hdependencies⟩
  obtain ⟨item, hitem⟩ := Record.exists_of_required_list? hfiles o ho
  exact Outline.isSized_of_ofDocument? hitem

end Project

/-- **A project comes back from its JSON** as it was, exactly if its numbers fit in 64 bits and its
entry points and dependencies are in order, each one once. Every project that is read from a
document, whatever the document leaves out, adds or repeats, is one of these. -/
theorem project_comesBack (p : Project) :
    (Project.ofDocument? p.json.document = some p ↔ p.IsProper) ∧
      ∀ d : Document, Project.ofDocument? d = some p →
        Project.ofDocument? p.json.document = some p :=
  ⟨⟨Project.isProper_of_ofDocument?, Project.ofDocument?_json⟩,
    fun _ hd => Project.ofDocument?_json (Project.isProper_of_ofDocument? hd)⟩

/-- Classes in classes, lines that end before they start and texts to be escaped; and a document
that leaves out children and a number of lines, repeats an entry point and a dependency, has a field
of its own, and holds an element as an array. -/
theorem project_comesBack_extremes :
    let p : Project := ⟨"", [⟨"a \"b\".ts", "", [⟨.classLike, "A", "", 7, natMax64,
      [⟨.classLike, "B", "\\", natMax64, 0, [⟨.asyncFunction, "\n", "ä", 1, 1, []⟩]⟩]⟩],
      ["import"], [], natMax64⟩], ["", "Z", "a"], [("", []), ("b", ["x", "x"])]⟩
    let d : Document := .object [
      (some "dependencies", .object [(some "b", .array [.string (some "x")]),
        (some "a", .array []), (some "b", .array [])]),
      (some "root", .string (some "r")), (some "other", .number none),
      (some "files", .array [.object [(some "file", .string (some "f")),
        (some "language", .string (some "l")), (some "imports", .array []),
        (some "exports", .array []), (some "elements", .array [.array [
          .object [(some "async-function", .null)], .string (some "n"), .string (some "f"),
          .number (some (.int 9)), .number (some (.int 3))]])]]),
      (some "entryPoints", .array [.string (some "f"), .string (some "b"), .string (some "f")])]
    let q : Project := ⟨"r", [⟨"f", "l", [⟨.asyncFunction, "n", "f", 9, 3, []⟩], [], [], 0⟩],
      ["b", "f"], [("a", []), ("b", [])]⟩
    p.IsProper ∧ Project.ofDocument? p.json.document = some p ∧
      Project.ofDocument? d = some q ∧ Project.ofDocument? q.json.document = some q := by
  intro p d q
  have hproper : p.IsProper := by decide +kernel
  have hread : Project.ofDocument? d = some q := rfl
  exact ⟨hproper, (project_comesBack p).1.mpr hproper, hread, (project_comesBack q).2 d hread⟩

end GuidedTour
