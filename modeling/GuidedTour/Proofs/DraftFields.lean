import GuidedTour.Proofs.Drafts
import GuidedTour.Proofs.Json.Members
import Mathlib.Data.List.Pairwise

namespace GuidedTour

/-!
# Which objects are drafts

Only the texts of an object decide whether it is a draft. Its line and its selection are read if
they can be, and cost nothing if they cannot.

* `Draft.fieldNamed_eq_some_iff` — the keys of a draft;
* `HasTexts` — an object whose texts can be read, and that names at most one file;
* `Draft.IsReadFrom` — what a draft says, told from the members of its object;
* `Answer.draft?_eq_some_iff` — an object is a draft that says what its members say, if it names at
  most one file;
* `Answer.IsItem.exists_drafts_iff` — so an object in an answer, which has each key once because it
  was read, brings a draft exactly if it has texts;
* `AgreeApartFrom` — objects that differ in the values of some keys only;
* `Answer.draft?_insert_line` — a line that an object has besides;
* `Answer.draft_lostByTexts` — an object is a draft exactly if it has texts, and with other values
  for line and selection it is the same draft apart from these two.
-/

variable {members members' given : List (String × Json)} {key name s : String} {keys : List String}

/-! ### Texts -/

/-- The text that stands behind one of the keys, or no text where none of the keys is there. -/
def IsTextOf (members : List (String × Json)) (keys : List String) (s : String) : Prop :=
  (∃ key ∈ keys, (key, Json.string s) ∈ members) ∨
    (∀ key ∈ keys, key ∉ members.map Prod.fst) ∧ s = ""

/-- The texts of an object can be read: each of them is a string, and at most one names the file. -/
structure HasTexts (members : List (String × Json)) : Prop where
  strings : ∀ key ∈ ["title", "file", "path", "description"], ∀ value, (key, value) ∈ members →
    ∃ s, value = .string s
  oneFile : ¬ ("file" ∈ members.map Prod.fst ∧ "path" ∈ members.map Prod.fst)

namespace IsTextOf

/-- The value behind the only key that is there is the text. -/
theorem value_eq {value : Json} (h : IsTextOf members keys s)
    (hnodup : (members.map Prod.fst).Nodup) (hkey : key ∈ keys) (hm : (key, value) ∈ members)
    (honly : ∀ other ∈ keys, other ∈ members.map Prod.fst → other = key) : value = .string s := by
  have hpresent : key ∈ members.map Prod.fst := List.mem_map_of_mem hm
  rcases h with ⟨other, hother, htext⟩ | ⟨hnone, -⟩
  · obtain rfl := honly other hother (List.mem_map_of_mem htext)
    have hvalue := (lookup_eq_some_iff_mem hnodup).mpr hm
    rw [(lookup_eq_some_iff_mem hnodup).mpr htext] at hvalue
    exact (Option.some.inj hvalue).symm
  · exact absurd hpresent (hnone key hkey)

end IsTextOf

/-- If all that is given for a field is text, there is a text that it has. -/
theorem exists_isTextOf
    (h : ∀ key ∈ keys, ∀ value, (key, value) ∈ members → ∃ s, value = .string s) :
    ∃ s, IsTextOf members keys s := by
  by_cases hpresent : ∃ key ∈ keys, key ∈ members.map Prod.fst
  · obtain ⟨key, hkey, hmem⟩ := hpresent
    obtain ⟨⟨_, value⟩, hm, rfl⟩ := List.mem_map.mp hmem
    obtain ⟨s, rfl⟩ := h _ hkey value hm
    exact ⟨s, .inl ⟨_, hkey, hm⟩⟩
  · push Not at hpresent
    exact ⟨"", .inr ⟨hpresent, rfl⟩⟩

/-- How a text is read from what is given for it. -/
inductive ReadsText : Option Json → String → Prop
  | missing : ReadsText none ""
  | given (s : String) : ReadsText (some (.string s)) s

/-- A text is read from a string, or the empty text where nothing is given. -/
theorem readsText_iff {value : Option Json} :
    ReadsText value s ↔ value = some (.string s) ∨ value = none ∧ s = "" := by
  constructor
  · rintro (_ | s)
    · exact .inr ⟨rfl, rfl⟩
    · exact .inl rfl
  · rintro (rfl | ⟨rfl, rfl⟩)
    · exact .given s
    · exact .missing

/-- A value has the text that is read from its document. -/
theorem Json.document_text? (value : Json) : value.document.text? = value.text? := by
  cases value <;> rfl

theorem Json.text?_eq_some_iff {value : Json} : value.text? = some s ↔ value = .string s := by
  cases value <;> simp [Json.text?]

/-- A text with a default is read from what is given for it. -/
theorem Record.defaulted_text_iff :
    (Record.ofMembers given).defaulted name "" (·.text?) = some s ↔
      ReadsText (given.lookup name) s := by
  rw [Record.defaulted, Record.get?_ofMembers]
  cases given.lookup name with
  | none =>
    show some "" = some s ↔ ReadsText none s
    simp [readsText_iff, eq_comm]
  | some value =>
    show value.document.text? = some s ↔ ReadsText (some value) s
    rw [Json.document_text?, Json.text?_eq_some_iff]
    simp [readsText_iff]

/-- What may be unreadable counts as not given. -/
theorem Record.defaulted_lenient {α : Type} (decode : Document → Option α) :
    (Record.ofMembers given).defaulted name none (fun v => some (decode v)) =
      some ((given.lookup name).bind fun value => decode value.document) := by
  rw [Record.defaulted, Record.get?_ofMembers]
  cases given.lookup name <;> rfl

/-! ### The fields of a draft -/

namespace Draft

/-- Every field has one key, apart from the file, which has two. -/
theorem fieldNamed_eq_some_iff :
    Document.fieldNamed fields key = some name ↔
      key ∈ ["title", "line", "description", "selection"] ∧ name = key ∨
        key ∈ ["file", "path"] ∧ name = "file" := by
  by_cases hknown : key ∈ ["title", "file", "path", "line", "description", "selection"]
  · simp only [List.mem_cons, List.not_mem_nil, or_false] at hknown
    rcases hknown with rfl | rfl | rfl | rfl | rfl | rfl <;>
      simp [Document.fieldNamed, fields, eq_comm]
  · simp only [List.mem_cons, List.not_mem_nil, or_false, not_or] at hknown
    simp [Document.fieldNamed, fields, hknown]

/-- Where a draft comes from, field by field. -/
theorem ofDocument?_object_eq_some_iff {d : Draft} :
    ofDocument? (Json.object members).document = some d ↔
      let given := Json.fieldMembers fields members
      (given.map Prod.fst).Nodup ∧ ReadsText (given.lookup "title") d.title ∧
        ReadsText (given.lookup "file") d.file ∧
        d.line = (given.lookup "line").bind (fun value => lineOf? value.document) ∧
        ReadsText (given.lookup "description") d.description ∧
        d.selection =
          (given.lookup "selection").bind fun value => Selection.ofDocument? value.document := by
  simp only [ofDocument?, Option.pure_def, Option.bind_eq_bind, Option.bind_eq_some_iff,
    Document.record?_object_eq_some_iff]
  -- The texts have to be read, and the line and the selection may fail.
  constructor
  · rintro ⟨r, ⟨hnodup, rfl⟩, title, htitle, file, hfile, line, hline, description, hdescription,
      selection, hselection, heq⟩
    obtain rfl := Option.some.inj heq
    rw [Record.defaulted_lenient] at hline hselection
    exact ⟨hnodup, Record.defaulted_text_iff.mp htitle, Record.defaulted_text_iff.mp hfile,
      (Option.some.inj hline).symm, Record.defaulted_text_iff.mp hdescription,
      (Option.some.inj hselection).symm⟩
  · rintro ⟨hnodup, htitle, hfile, hline, hdescription, hselection⟩
    refine ⟨_, ⟨hnodup, rfl⟩, d.title, Record.defaulted_text_iff.mpr htitle,
      d.file, Record.defaulted_text_iff.mpr hfile, d.line, ?_,
      d.description, Record.defaulted_text_iff.mpr hdescription, d.selection, ?_, rfl⟩
    · rw [Record.defaulted_lenient, hline]
    · rw [Record.defaulted_lenient, hselection]

/-! ### Objects that name nothing twice -/

/-- Of distinct keys, two name the same field only if they are `file` and `path`. -/
theorem nodup_fieldMembers_iff (hkeys : (members.map Prod.fst).Nodup) :
    ((Json.fieldMembers fields members).map Prod.fst).Nodup ↔
      ¬ ("file" ∈ members.map Prod.fst ∧ "path" ∈ members.map Prod.fst) := by
  rw [Json.keys_fieldMembers]
  generalize members.map Prod.fst = keys at hkeys ⊢
  rw [List.Nodup, List.pairwise_filterMap]
  constructor
  · rintro hpairs ⟨hfile, hpath⟩
    -- Whichever of the two keys comes first, both name the file.
    have hnames : Document.fieldNamed fields "file" = some "file" ∧
        Document.fieldNamed fields "path" = some "file" := by decide
    have hsymm : Std.Symm fun key key' : String =>
        ∀ name, Document.fieldNamed fields key = some name →
          ∀ name', Document.fieldNamed fields key' = some name' → name ≠ name' :=
      ⟨fun _ _ h name hname name' hname' => (h name' hname' name hname).symm⟩
    exact hpairs.forall hfile hpath (by decide) _ hnames.1 _ hnames.2 rfl
  · intro hone
    refine hkeys.imp_of_mem fun {key key'} hkey hkey' hne name hname name' hname' heq => ?_
    subst heq
    rw [fieldNamed_eq_some_iff] at hname hname'
    simp only [List.mem_cons, List.not_mem_nil, or_false] at hname hname'
    grind

/-- What is given for a field that has a single key is what stands behind that key. -/
theorem lookup_fieldMembers (hnodup : (members.map Prod.fst).Nodup)
    (hone : ((Json.fieldMembers fields members).map Prod.fst).Nodup)
    (hname : name ∈ ["title", "line", "description", "selection"]) :
    (Json.fieldMembers fields members).lookup name = members.lookup name := by
  ext value
  rw [lookup_eq_some_iff_mem hone, lookup_eq_some_iff_mem hnodup, Json.mem_fieldMembers]
  simp only [fieldNamed_eq_some_iff]
  constructor
  · rintro ⟨key, hm, ⟨-, rfl⟩ | ⟨-, rfl⟩⟩
    · exact hm
    · exact absurd hname (by decide)
  · intro hm
    exact ⟨name, hm, .inl ⟨hname, rfl⟩⟩

/-- What is given for a field is read as the text behind one of its keys. -/
theorem readsText_fieldMembers_iff
    (hone : ((Json.fieldMembers fields members).map Prod.fst).Nodup)
    (hkeys : ∀ key, Document.fieldNamed fields key = some name ↔ key ∈ keys) :
    ReadsText ((Json.fieldMembers fields members).lookup name) s ↔ IsTextOf members keys s := by
  have hgiven : (Json.fieldMembers fields members).lookup name = some (.string s) ↔
      ∃ key ∈ keys, (key, Json.string s) ∈ members := by
    rw [lookup_eq_some_iff_mem hone, Json.mem_fieldMembers]
    simp only [hkeys, and_comm]
  -- The field is missing if none of its keys is there.
  have hmissing : (Json.fieldMembers fields members).lookup name = none ↔
      ∀ key ∈ keys, key ∉ members.map Prod.fst := by
    rw [List.lookup_eq_none_iff]
    constructor
    · intro hnone key hkey hmem
      obtain ⟨⟨_, value⟩, hm, rfl⟩ := List.mem_map.mp hmem
      have hfield := Json.mem_fieldMembers.mpr ⟨_, hm, (hkeys _).mpr hkey⟩
      simpa using hnone _ hfield
    · rintro hnone ⟨other, value⟩ hm
      obtain ⟨key, hmem, hkey⟩ := Json.mem_fieldMembers.mp hm
      rw [bne_iff_ne]
      rintro rfl
      exact hnone key ((hkeys key).mp hkey) (List.mem_map_of_mem hmem)
  rw [readsText_iff, hgiven, hmissing, IsTextOf]

end Draft

/-! ### Drafts told from their members -/

/-- The line that an object gives, if it can be read. -/
def lineIn (members : List (String × Json)) : Option Int :=
  (members.lookup "line").bind fun value => lineOf? value.document

/-- The selection that an object gives, if it can be read. -/
def selectionIn (members : List (String × Json)) : Option Selection :=
  (members.lookup "selection").bind fun value => Selection.ofDocument? value.document

/-- What a draft says is what the members of its object say. -/
structure Draft.IsReadFrom (members : List (String × Json)) (d : Draft) : Prop where
  title : IsTextOf members ["title"] d.title
  file : IsTextOf members ["file", "path"] d.file
  description : IsTextOf members ["description"] d.description
  line : d.line = lineIn members
  selection : d.selection = selectionIn members

/-- Two objects with the same keys that differ in the values of some keys only. -/
def AgreeApartFrom (keys : List String) (members members' : List (String × Json)) : Prop :=
  List.Forall₂ (fun m m' => m'.1 = m.1 ∧ (m.1 ∉ keys → m'.2 = m.2)) members members'

namespace AgreeApartFrom

theorem keys_eq (h : AgreeApartFrom keys members members') :
    members'.map Prod.fst = members.map Prod.fst := by
  induction h with
  | nil => rfl
  | cons hm _ ih => rw [List.map_cons, List.map_cons, hm.1, ih]

/-- Members that agree apart from some keys have the same values at all others. -/
theorem mem_iff {value : Json} (h : AgreeApartFrom keys members members') (hkey : key ∉ keys) :
    (key, value) ∈ members' ↔ (key, value) ∈ members := by
  induction h with
  | nil => rfl
  | @cons m m' _ _ hm _ ih =>
    obtain ⟨hname, hvalue⟩ := hm
    have hhead : (key, value) = m' ↔ (key, value) = m := by
      rw [Prod.ext_iff, Prod.ext_iff, hname]
      refine and_congr_right fun heq => ?_
      rw [hvalue (heq ▸ hkey)]
    rw [List.mem_cons, List.mem_cons, hhead, ih]

/-- Members that agree apart from some keys have the same text for a field of others. -/
theorem isTextOf_iff {names : List String} (h : AgreeApartFrom keys members members')
    (hnames : ∀ name ∈ names, name ∉ keys) :
    IsTextOf members' names s ↔ IsTextOf members names s := by
  unfold IsTextOf
  rw [h.keys_eq]
  refine or_congr_left (exists_congr fun name => and_congr_right fun hname => ?_)
  exact h.mem_iff (hnames name hname)

end AgreeApartFrom

namespace Answer

/-- **Drafts, told from their members.** An object is a draft that says what its members say, unless
it names two files. -/
theorem draft?_eq_some_iff {d : Draft} (hkeys : (members.map Prod.fst).Nodup) :
    draft? (.object members) = some d ↔
      ¬ ("file" ∈ members.map Prod.fst ∧ "path" ∈ members.map Prod.fst) ∧
        d.IsReadFrom members := by
  show Draft.ofDocument? (Json.object members).document = some d ↔ _
  rw [Draft.ofDocument?_object_eq_some_iff, ← Draft.nodup_fieldMembers_iff hkeys]
  refine and_congr_right fun hone => ?_
  -- Each field is looked up on its own.
  have htitle : ReadsText ((Json.fieldMembers Draft.fields members).lookup "title") d.title ↔
      IsTextOf members ["title"] d.title :=
    Draft.readsText_fieldMembers_iff hone fun key => by
      simp only [Draft.fieldNamed_eq_some_iff]
      grind
  have hfile : ReadsText ((Json.fieldMembers Draft.fields members).lookup "file") d.file ↔
      IsTextOf members ["file", "path"] d.file :=
    Draft.readsText_fieldMembers_iff hone fun key => by
      simp only [Draft.fieldNamed_eq_some_iff]
      grind
  have hdescription :
      ReadsText ((Json.fieldMembers Draft.fields members).lookup "description") d.description ↔
        IsTextOf members ["description"] d.description :=
    Draft.readsText_fieldMembers_iff hone fun key => by
      simp only [Draft.fieldNamed_eq_some_iff]
      grind
  rw [htitle, hfile, hdescription, Draft.lookup_fieldMembers hkeys hone (by decide),
    Draft.lookup_fieldMembers hkeys hone (by decide)]
  constructor
  · rintro ⟨htitle, hfile, hline, hdescription, hselection⟩
    exact ⟨htitle, hfile, hdescription, hline, hselection⟩
  · rintro ⟨htitle, hfile, hdescription, hline, hselection⟩
    exact ⟨htitle, hfile, hline, hdescription, hselection⟩

/-- An object is a draft exactly if its texts can be read. -/
theorem exists_draft?_iff (hkeys : (members.map Prod.fst).Nodup) :
    (∃ d, draft? (.object members) = some d) ↔ HasTexts members := by
  simp only [draft?_eq_some_iff hkeys]
  constructor
  · rintro ⟨d, hone, hread⟩
    refine ⟨fun key hkey value hm => ?_, hone⟩
    have hpresent : key ∈ members.map Prod.fst := List.mem_map_of_mem hm
    simp only [List.mem_cons, List.not_mem_nil, or_false] at hkey
    -- The key is one of the keys of a text, and the other key of that text is not there.
    rcases hkey with rfl | rfl | rfl | rfl
    · exact ⟨_, hread.title.value_eq hkeys (by simp) hm (by simp)⟩
    · refine ⟨_, hread.file.value_eq hkeys (by simp) hm ?_⟩
      simpa using fun value hpath => hone ⟨hpresent, List.mem_map_of_mem hpath⟩
    · refine ⟨_, hread.file.value_eq hkeys (by simp) hm ?_⟩
      simpa using fun value hfile => hone ⟨List.mem_map_of_mem hfile, hpresent⟩
    · exact ⟨_, hread.description.value_eq hkeys (by simp) hm (by simp)⟩
  · rintro ⟨hstrings, hone⟩
    have hread : ∀ keys : List String, keys ⊆ ["title", "file", "path", "description"] →
        ∃ s, IsTextOf members keys s := fun keys hkeys' =>
      exists_isTextOf fun key hkey => hstrings key (hkeys' hkey)
    obtain ⟨title, htitle⟩ := hread ["title"] (by decide)
    obtain ⟨file, hfile⟩ := hread ["file", "path"] (by decide)
    obtain ⟨description, hdescription⟩ := hread ["description"] (by decide)
    exact ⟨⟨title, file, lineIn members, description, selectionIn members⟩, hone,
      htitle, hfile, hdescription, rfl, rfl⟩

/-- An object that an answer holds has each key once, whatever its text repeats. -/
theorem IsItem.nodup {text : List Char} (h : IsItem text (.object members)) :
    (members.map Prod.fst).Nodup := by
  obtain ⟨d, -, hvalue⟩ := h
  exact Document.nodup_of_valueWithin hvalue

/-- **Objects in answers.** An object brings a draft exactly if its texts can be read. -/
theorem IsItem.exists_drafts_iff {text : List Char} (h : IsItem text (.object members)) :
    (∃ d, drafts ('[' :: text ++ [']']) = [d]) ↔ HasTexts members := by
  rw [← exists_draft?_iff h.nodup, drafts_of_item h]
  cases draft? (.object members) <;> simp

/-- With other values for line and selection the object is the same draft, apart from these two. -/
theorem draft?_of_agreeApartFrom (hkeys : (members.map Prod.fst).Nodup)
    (h : AgreeApartFrom ["line", "selection"] members members') :
    draft? (.object members') = (draft? (.object members)).map fun d =>
      { d with line := lineIn members', selection := selectionIn members' } := by
  have hkeys' : (members'.map Prod.fst).Nodup := h.keys_eq ▸ hkeys
  have htitle : ∀ s, IsTextOf members' ["title"] s ↔ IsTextOf members ["title"] s :=
    fun s => h.isTextOf_iff (by decide)
  have hfile : ∀ s, IsTextOf members' ["file", "path"] s ↔ IsTextOf members ["file", "path"] s :=
    fun s => h.isTextOf_iff (by decide)
  have hdescription : ∀ s, IsTextOf members' ["description"] s ↔
      IsTextOf members ["description"] s := fun s => h.isTextOf_iff (by decide)
  -- A draft is told by its fields, so it is enough that both sides have the same ones.
  ext d'
  rw [draft?_eq_some_iff hkeys', h.keys_eq, Option.map_eq_some_iff]
  simp only [draft?_eq_some_iff hkeys]
  constructor
  · rintro ⟨hone, hread⟩
    refine ⟨{ d' with line := lineIn members, selection := selectionIn members }, ⟨hone, ?_⟩, ?_⟩
    · exact ⟨(htitle _).mp hread.title, (hfile _).mp hread.file,
        (hdescription _).mp hread.description, rfl, rfl⟩
    · rw [← hread.line, ← hread.selection]
  · rintro ⟨d, ⟨hone, hread⟩, rfl⟩
    exact ⟨hone, (htitle _).mpr hread.title, (hfile _).mpr hread.file,
      (hdescription _).mpr hread.description, rfl, rfl⟩

/-- A line that an object has besides is the line of the draft, and changes nothing else. -/
theorem draft?_insert_line {before after : List (String × Json)} {value : Json}
    (hnew : "line" ∉ (before ++ after).map Prod.fst) :
    draft? (.object (before ++ ("line", value) :: after)) =
      (draft? (.object (before ++ after))).map fun d =>
        { d with line := lineOf? value.document } := by
  have hfield : Document.fieldNamed Draft.fields "line" = some "line" := by decide
  have hline : "line" ∉ (Json.fieldMembers Draft.fields (before ++ after)).map Prod.fst := by
    rw [Json.keys_fieldMembers, List.mem_filterMap]
    rintro ⟨key, hkey, hname⟩
    rw [Draft.fieldNamed_eq_some_iff] at hname
    rcases hname with ⟨-, rfl⟩ | ⟨-, hfile⟩
    · exact hnew hkey
    · exact absurd hfile (by decide)
  have hmissing : (Json.fieldMembers Draft.fields (before ++ after)).lookup "line" = none := by
    rw [List.lookup_eq_none_iff]
    intro m hm
    have hne : "line" ≠ m.1 := fun heq => hline (heq ▸ List.mem_map_of_mem hm)
    simpa using hne
  ext d'
  show Draft.ofDocument? (Json.object _).document = some d' ↔
    (Draft.ofDocument? (Json.object (before ++ after)).document).map _ = some d'
  simp only [Option.map_eq_some_iff, Draft.ofDocument?_object_eq_some_iff,
    Json.nodup_fieldMembers_insert hfield, Json.lookup_fieldMembers_insert hfield hline, hmissing,
    Option.bind_none]
  -- Only the look-up of the line sees the new member.
  constructor
  · rintro ⟨⟨-, hnodup⟩, htitle, hfile, hvalue, hdescription, hselection⟩
    refine ⟨{ d' with line := none }, ⟨hnodup, htitle, hfile, rfl, hdescription, hselection⟩, ?_⟩
    exact congrArg (fun line => { d' with line }) hvalue.symm
  · rintro ⟨d, ⟨hnodup, htitle, hfile, -, hdescription, hselection⟩, rfl⟩
    exact ⟨⟨hline, hnodup⟩, htitle, hfile, rfl, hdescription, hselection⟩

/-- **Only bad texts lose a draft.** An object, which has each key once, is a draft exactly if each
of its texts is a string and it names at most one file. The draft says what the members say; a line
and a selection that cannot be read count as none. With other values for these two it is still a
draft or still none, and nothing else about it changes. -/
theorem draft_lostByTexts (hkeys : (members.map Prod.fst).Nodup) :
    ((∃ d, draft? (.object members) = some d) ↔ HasTexts members) ∧
      (∀ d, draft? (.object members) = some d → d.IsReadFrom members) ∧
      ∀ members', AgreeApartFrom ["line", "selection"] members members' →
        draft? (.object members') = (draft? (.object members)).map fun d =>
          { d with line := lineIn members', selection := selectionIn members' } :=
  ⟨exists_draft?_iff hkeys, fun _ hd => ((draft?_eq_some_iff hkeys).mp hd).2,
    fun _ h => draft?_of_agreeApartFrom hkeys h⟩

/-- In an object that is read from a text with two titles, beside an alias and an unknown key, a line
and a selection that cannot be read give way to some that can. -/
theorem draft_lostByTexts_oddValues :
    let written : List (String × Json) := [("title", .string "Exit"), ("path", .string "src/a.ts"),
      ("line", .array [.nat 3]), ("note", .null), ("title", .string "Entry"),
      ("selection", .bool true)]
    let members : List (String × Json) := [("title", .string "Entry"), ("path", .string "src/a.ts"),
      ("line", .array [.nat 3]), ("note", .null), ("selection", .bool true)]
    let members' : List (String × Json) := [("title", .string "Entry"),
      ("path", .string "src/a.ts"), ("line", .string " 12 "), ("note", .null),
      ("selection", (⟨⟨2, 0⟩, ⟨4, 1⟩⟩ : Selection).json)]
    IsItem (Json.object written).compact (.object members) ∧ (members.map Prod.fst).Nodup ∧
      AgreeApartFrom ["line", "selection"] members members' ∧
      draft? (.object members) = some { title := "Entry", file := "src/a.ts" } ∧
      draft? (.object members') =
        some { title := "Entry", file := "src/a.ts", line := some 12
               selection := some ⟨⟨2, 0⟩, ⟨4, 1⟩⟩ } := by
  intro written members members'
  have hitem : IsItem (Json.object written).compact (.object members) := by
    have hfits : (Json.object written).NumbersFit := by
      simp [written, Json.NumbersFit, Json.MembersFit, Json.ItemsFit, Json.nat, int64Min, wordMax]
    refine ⟨_, .of_spells (Json.spells_compact hfits), ?_⟩
    -- Of the two titles the last one counts.
    simp [written, members, Json.document, Json.documents, Json.memberDocuments,
      Document.valueWithin, Document.valuesWithin, Document.membersWithin, Document.maxDepth,
      Json.lastOfEachKey, Json.putMember, Json.nat]
  have hagree : AgreeApartFrom ["line", "selection"] members members' :=
    .cons ⟨rfl, fun _ => rfl⟩ <| .cons ⟨rfl, fun _ => rfl⟩ <|
      .cons ⟨rfl, fun h => absurd (by decide) h⟩ <| .cons ⟨rfl, fun _ => rfl⟩ <|
        .cons ⟨rfl, fun h => absurd (by decide) h⟩ .nil
  have hdraft : draft? (.object members) = some { title := "Entry", file := "src/a.ts" } := by
    decide +kernel
  have hlines : lineIn members' = some 12 ∧ selectionIn members' = some ⟨⟨2, 0⟩, ⟨4, 1⟩⟩ := by
    decide +kernel
  refine ⟨hitem, hitem.nodup, hagree, hdraft, ?_⟩
  rw [(draft_lostByTexts hitem.nodup).2.2 members' hagree, hdraft, hlines.1, hlines.2]
  rfl

end Answer

end GuidedTour
