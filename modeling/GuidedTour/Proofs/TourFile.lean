import GuidedTour.Proofs.DraftJson
import GuidedTour.Proofs.Json.Fields
import GuidedTour.Proofs.Json.Indented
import GuidedTour.Proofs.Json.Record
import GuidedTour.Tour.Artifact

namespace GuidedTour

open scoped List

/-!
# Tours as files and back

A tour file leaves out what has nothing to say, and what it leaves out is what the reader fills in.

* `Step.IsSized`, `Tour.IsSized` — the numbers of a step and of a tour fit in 64 bits;
* `Step.ofDocument?_json`, `Tour.ofDocument?_json` — such a step and such a tour are read back from
  their JSON as they were;
* `Step.isSized_of_ofDocument?`, `Tour.isSized_of_ofDocument?` — and nothing else is ever read;
* `tour_comesBack` — so a tour comes back from its file exactly if its numbers fit, as every tour
  does that was read from a text.
-/

/-- All numbers of a step fit in 64 bits. -/
structure Step.IsSized (step : Step) : Prop where
  line : ∀ n ∈ step.line, n ≤ natMax64
  selection : ∀ s ∈ step.selection, s.IsSized

/-- All numbers of a tour fit in 64 bits. -/
structure Tour.IsSized (t : Tour) : Prop where
  steps : ∀ step ∈ t.steps, step.IsSized

instance (step : Step) : Decidable step.IsSized :=
  decidable_of_iff ((∀ n ∈ step.line, n ≤ natMax64) ∧ ∀ s ∈ step.selection, s.IsSized)
    ⟨fun h => ⟨h.1, h.2⟩, fun h => ⟨h.line, h.selection⟩⟩

instance (t : Tour) : Decidable t.IsSized :=
  decidable_of_iff (∀ step ∈ t.steps, step.IsSized) ⟨fun h => ⟨h⟩, fun h => h.steps⟩

/-! ### Members that may be left out -/

section Optional

variable {α : Type}

/-- A member that may be left out has its one key, or none. -/
theorem Json.keys_optionalMember (key : String) (f : α → Json) (a : Option α) :
    (Json.optionalMember key f a).map Prod.fst <+ [key] := by
  cases a <;> simp [Json.optionalMember]

/-- A member that may be left out is found if its value is there. -/
theorem Json.lookup_optionalMember (name key : String) (f : α → Json) (a : Option α) :
    (Json.optionalMember key f a).lookup name = if name = key then a.map f else none := by
  cases a with
  | none => simp [Json.optionalMember]
  | some x =>
    by_cases h : name = key
    · simp [Json.optionalMember, h]
    · simp [Json.optionalMember, List.lookup_cons, h, beq_eq_false_iff_ne.mpr h]

/-- Numbers fit in members in a row if they do in each part. -/
theorem Json.membersFit_append {members rest : List (String × Json)} (h : Json.MembersFit members)
    (hrest : Json.MembersFit rest) : Json.MembersFit (members ++ rest) := by
  induction members with
  | nil => exact hrest
  | cons m members ih => exact ⟨h.1, ih h.2⟩

/-- Numbers fit in a member that may be left out if they do in its value. -/
theorem Json.membersFit_optionalMember {key : String} {f : α → Json} {a : Option α}
    (h : ∀ x ∈ a, (f x).NumbersFit) :
    Json.MembersFit (Json.optionalMember key f a) := by
  cases a with
  | none => trivial
  | some x => exact ⟨h x rfl, trivial⟩

end Optional

/-! ### Selections -/

/-- The numbers of a position that is read fit. -/
theorem Position.isSized_of_ofDocument? {d : Document} {p : Position}
    (h : Position.ofDocument? d = some p) : p.IsSized := by
  simp only [Position.ofDocument?, Option.bind_eq_bind, Option.bind_eq_some_iff,
    Option.pure_def] at h
  obtain ⟨r, -, line, hline, character, hcharacter, heq⟩ := h
  obtain rfl := Option.some.inj heq
  obtain ⟨_, hline⟩ := Record.exists_of_required hline
  obtain ⟨_, hcharacter⟩ := Record.exists_of_required hcharacter
  exact ⟨Document.nat?_le hline, Document.nat?_le hcharacter⟩

/-- The numbers of a selection that is read fit. -/
theorem Selection.isSized_of_ofDocument? {d : Document} {s : Selection}
    (h : Selection.ofDocument? d = some s) : s.IsSized := by
  simp only [Selection.ofDocument?, Option.bind_eq_bind, Option.bind_eq_some_iff,
    Option.pure_def] at h
  obtain ⟨r, -, start, hstart, stop, hstop, heq⟩ := h
  obtain rfl := Option.some.inj heq
  obtain ⟨_, hstart⟩ := Record.exists_of_required hstart
  obtain ⟨_, hstop⟩ := Record.exists_of_required hstop
  exact ⟨Position.isSized_of_ofDocument? hstart, Position.isSized_of_ofDocument? hstop⟩

/-! ### Steps -/

namespace Step

/-- The file of a step as it is written, if it is. -/
def writtenFile (step : Step) : Option String := if step.file.isEmpty then none else some step.file

/-- The members of a step as they are written. -/
def members (step : Step) : List (String × Json) :=
  [("title", .string step.title)] ++ (Json.optionalMember "file" .string step.writtenFile ++
    (Json.optionalMember "line" .nat step.line ++ ([("description", .string step.description)] ++
      Json.optionalMember "selection" Selection.json step.selection)))

theorem json_eq (step : Step) : step.json = .object step.members := by
  have hfile : (if step.file.isEmpty then [] else [("file", Json.string step.file)]) =
      Json.optionalMember "file" Json.string step.writtenFile := by
    unfold writtenFile
    split <;> rfl
  rw [json, hfile, members]
  simp only [List.append_assoc]

/-- The members of a step are some of its fields, in their order. -/
theorem keys_members (step : Step) : step.members.map Prod.fst <+ ownNames fields := by
  simp only [members, List.map_append]
  exact (List.Sublist.refl ["title"]).append ((Json.keys_optionalMember "file" _ _).append
    ((Json.keys_optionalMember "line" _ _).append ((List.Sublist.refl ["description"]).append
      (Json.keys_optionalMember "selection" _ _))))

/-- A written step is read as the record of its members. -/
theorem record?_json (step : Step) :
    step.json.document.record? fields = some (.ofMembers step.members) := by
  rw [json_eq]
  exact Document.record?_object (by decide) step.keys_members

/-- What is written for the fields of a step. -/
theorem get?_members (step : Step) :
    let r := Record.ofMembers step.members
    r.get? "title" = some (.string (some step.title)) ∧
      r.get? "file" = step.writtenFile.map (fun file => .string (some file)) ∧
      r.get? "line" = step.line.map (fun n => (Json.nat n).document) ∧
      r.get? "description" = some (.string (some step.description)) ∧
      r.get? "selection" = step.selection.map (fun s => s.json.document) := by
  simp only [Record.get?_ofMembers, members, List.lookup_append, Json.lookup_optionalMember]
  refine ⟨rfl, ?_, ?_, rfl, ?_⟩
  · cases step.writtenFile <;> rfl
  · cases step.line <;> rfl
  · cases step.selection <;> rfl

/-- A file that is left out is read as the empty one. -/
theorem read_writtenFile {r : Record} (step : Step)
    (h : r.get? "file" = step.writtenFile.map fun file => .string (some file)) :
    r.defaulted "file" "" (·.text?) = some step.file := by
  rw [Record.defaulted, h, writtenFile]
  by_cases hempty : step.file.isEmpty
  · simp_all
  · simp [hempty, Document.text?]

/-- A step whose numbers fit is read back. -/
theorem ofDocument?_json {step : Step} (h : step.IsSized) :
    Step.ofDocument? step.json.document = some step := by
  obtain ⟨htitle, hfile, hline, hdescription, hselection⟩ := step.get?_members
  have hlines : (Record.ofMembers step.members).nullable "line" (·.nat? natMax64) =
      some step.line :=
    Record.nullable_of_written hline (by simp [Json.nat, Json.document]) fun n hn =>
      Json.nat?_document (h.line n hn)
  have hselections := Record.nullable_of_written hselection (by simp [Selection.json, Json.document])
    fun s hs => Selection.ofDocument?_json (h.selection s hs)
  simp only [Step.ofDocument?, record?_json, Record.required_of_text htitle,
    Record.required_of_text hdescription, read_writtenFile step hfile, hlines, hselections,
    Option.bind_eq_bind, Option.bind_some, Option.pure_def]

/-- A step that was read has numbers of 64 bits. -/
theorem isSized_of_ofDocument? {d : Document} {step : Step} (h : Step.ofDocument? d = some step) :
    step.IsSized := by
  simp only [Step.ofDocument?, Option.bind_eq_bind, Option.bind_eq_some_iff, Option.pure_def] at h
  obtain ⟨r, -, title, -, file, -, line, hline, description, -, selection, hselection, heq⟩ := h
  obtain rfl := Option.some.inj heq
  refine ⟨fun n hn => ?_, fun s hs => ?_⟩
  · obtain rfl : line = some n := hn
    obtain ⟨item, hitem⟩ := Record.exists_of_nullable hline
    exact Document.nat?_le hitem
  · obtain rfl : selection = some s := hs
    obtain ⟨item, hitem⟩ := Record.exists_of_nullable hselection
    exact Selection.isSized_of_ofDocument? hitem

/-- The numbers of a written step fit if those of the step do. -/
theorem numbersFit_json {step : Step} (h : step.IsSized) : step.json.NumbersFit := by
  have hfile : Json.MembersFit (Json.optionalMember "file" .string step.writtenFile) :=
    Json.membersFit_optionalMember fun _ _ => trivial
  have hline : Json.MembersFit (Json.optionalMember "line" .nat step.line) :=
    Json.membersFit_optionalMember fun n hn => Json.numbersFit_nat (h.line n hn)
  have hselection : Json.MembersFit (Json.optionalMember "selection" Selection.json step.selection) :=
    Json.membersFit_optionalMember fun s hs => Selection.numbersFit_json (h.selection s hs)
  rw [json_eq]
  exact Json.membersFit_append ⟨trivial, trivial⟩ (Json.membersFit_append hfile
    (Json.membersFit_append hline (Json.membersFit_append ⟨trivial, trivial⟩ hselection)))

end Step

/-! ### Tours -/

namespace Tour

/-- A tour whose numbers fit is read back. -/
theorem ofDocument?_json {t : Tour} (h : t.IsSized) : Tour.ofDocument? t.json.document = some t := by
  have hrecord : t.json.document.record? fields = some (.ofMembers [("$schema", .string t.schema),
      ("id", .string t.id), ("title", .string t.title), ("description", .string t.description),
      ("steps", .array (t.steps.map Step.json))]) :=
    Document.record?_object (by decide) (.refl _)
  have hsteps : (Json.array (t.steps.map Step.json)).document.list? Step.ofDocument? =
      some t.steps :=
    Document.list?_of_written fun step hstep => Step.ofDocument?_json (h.steps step hstep)
  simp [Tour.ofDocument?, hrecord, Record.defaulted, Record.required, Record.get?_ofMembers,
    List.lookup_cons, Json.text?_document, hsteps]

/-- The numbers of a tour that is read fit. -/
theorem isSized_of_ofDocument? {d : Document} {t : Tour} (h : Tour.ofDocument? d = some t) :
    t.IsSized := by
  simp only [Tour.ofDocument?, Option.bind_eq_bind, Option.bind_eq_some_iff, Option.pure_def] at h
  obtain ⟨r, -, schema, -, id, -, title, -, description, -, steps, hsteps, heq⟩ := h
  obtain rfl := Option.some.inj heq
  refine ⟨fun step hstep => ?_⟩
  obtain ⟨item, hitem⟩ := Record.exists_of_required_list? hsteps step hstep
  exact Step.isSized_of_ofDocument? hitem

/-- The numbers of a written tour fit if those of the tour do. -/
theorem numbersFit_json {t : Tour} (h : t.IsSized) : t.json.NumbersFit := by
  have hsteps : Json.ItemsFit (t.steps.map Step.json) :=
    Json.itemsFit_iff.mpr (List.forall_mem_map.mpr fun step hstep =>
      Step.numbersFit_json (h.steps step hstep))
  exact ⟨trivial, trivial, trivial, trivial, hsteps, trivial⟩

end Tour

/-- **A tour comes back from its file** as it was, exactly if its numbers fit in 64 bits. Every tour
that was read from a text, whatever the text leaves out or adds, is one of these. -/
theorem tour_comesBack (t : Tour) :
    (Tour.ofText? t.toText = some t ↔ t.IsSized) ∧
      ∀ s : String, Tour.ofText? s = some t → Tour.ofText? t.toText = some t := by
  have hsized : ∀ s : String, Tour.ofText? s = some t → t.IsSized := by
    intro s hs
    obtain ⟨d, -, hd⟩ := Option.bind_eq_some_iff.mp hs
    exact Tour.isSized_of_ofDocument? hd
  have hback : t.IsSized → Tour.ofText? t.toText = some t := by
    intro h
    rw [Tour.ofText?, Tour.toText, String.toList_ofList, Json.parse_pretty (Tour.numbersFit_json h)]
    exact Tour.ofDocument?_json h
  exact ⟨⟨hsized t.toText, hback⟩, fun s hs => hback (hsized s hs)⟩

/-- Quotes, backslashes and control characters in texts, numbers at the ends of their range and a
step that says next to nothing; and a text with its members in disorder, one of them unknown, whose
step is written as an array. -/
theorem tour_comesBack_extremes :
    let t : Tour := ⟨"", "../\"a\"", "\\ \x01\n", "", [⟨"", "", none, "", none⟩,
      ⟨"Welcome ]", "src/ä b.ts", some natMax64, "\t", some ⟨⟨0, natMax64⟩, ⟨natMax64, 0⟩⟩⟩]⟩
    let s := "\x7b\"steps\": [[\"T\", \"f\", 7, \"D\"]], \"x\": 1e400, " ++
      "\"title\": \"A\\u0062\", \"id\": \"i\"\x7d"
    let u : Tour := ⟨tourSchema, "i", "Ab", "", [⟨"T", "f", some 7, "D", none⟩]⟩
    t.IsSized ∧ Tour.ofText? t.toText = some t ∧
      Tour.ofText? s = some u ∧ Tour.ofText? u.toText = some u := by
  intro t s u
  have hsized : t.IsSized := by decide
  have hread : Tour.ofText? s = some u := by decide +kernel
  exact ⟨hsized, (tour_comesBack t).1.mpr hsized, hread, (tour_comesBack u).2 s hread⟩

end GuidedTour
