import GuidedTour.Proofs.Json.RecordForm
import Mathlib.Data.List.Forall2

namespace GuidedTour

open scoped List

/-!
# Reading records back

A record that was written as an object gives each of its fields what was written for it.

* `Record.ofMembers` — the record that an object gives;
* `Document.record?_object` — it is given, if the keys are names of fields and in their order;
* `Record.nullable_of_written`, `Document.list?_of_written` — a field that may be left out and a
  list are read back, if what they hold is;
* `Json.text?_document`, `Json.nat?_document`, `Document.list?_texts` — as texts and numbers are;
* `Record.exists_of_required`, `Document.list?_eq_some_iff` and the like — where a value that was
  read comes from.
-/

variable {α : Type} {fields : List (List String)} {members : List (String × Json)} {name : String}
  {decode : Document → Option α}

/-! ### The fields of an object -/

/-- The record that an object with these members gives. -/
def Record.ofMembers (members : List (String × Json)) : Record :=
  ⟨members.map fun m => (m.1, m.2.document), false⟩

/-- A field of the members of an object is the member of that name. -/
theorem Record.get?_ofMembers (members : List (String × Json)) (name : String) :
    (ofMembers members).get? name = (members.lookup name).map Json.document := by
  simp only [get?, ofMembers]
  induction members with
  | nil => rfl
  | cons m rest ih =>
    obtain ⟨key, value⟩ := m
    rw [List.map_cons, List.lookup_cons, List.lookup_cons, ih]
    cases name == key <;> rfl

/-- The own names of fields, in their order. -/
def ownNames (fields : List (List String)) : List String := fields.filterMap List.head?

/-- Each field has an own name, which names no other field. -/
structure FieldsApart (fields : List (List String)) : Prop where
  nodup : (ownNames fields).Nodup
  named : ∀ name ∈ ownNames fields, Document.fieldNamed fields name = some name

instance (fields : List (List String)) : Decidable (FieldsApart fields) :=
  decidable_of_iff ((ownNames fields).Nodup ∧
      ∀ name ∈ ownNames fields, Document.fieldNamed fields name = some name)
    ⟨fun h => ⟨h.1, h.2⟩, fun h => ⟨h.nodup, h.named⟩⟩

theorem Json.memberDocuments_eq_map (members : List (String × Json)) :
    memberDocuments members = members.map fun m => (some m.1, m.2.document) := by
  induction members with
  | nil => rfl
  | cons m rest ih => rw [memberDocuments, ih, List.map_cons]

/-- What was written has no broken key. -/
theorem Json.isSome_of_mem_memberDocuments {members : List (String × Json)} :
    ∀ m ∈ memberDocuments members, m.1.isSome = true := by
  rw [memberDocuments_eq_map, List.forall_mem_map]
  exact fun _ _ => rfl

/-- Members with own names of fields all name one. -/
theorem Document.namedMembers_of_named (h : ∀ m ∈ members, fieldNamed fields m.1 = some m.1) :
    namedMembers fields (Json.memberDocuments members) =
      members.map fun m => (m.1, m.2.document) := by
  induction members with
  | nil => rfl
  | cons m rest ih =>
    obtain ⟨key, value⟩ := m
    have hkey : fieldNamed fields key = some key := h _ List.mem_cons_self
    rw [Json.memberDocuments, namedMembers_cons, hkey,
      ih fun m hm => h m (List.mem_cons_of_mem _ hm)]
    rfl

/-- An object gives its members to the fields, if their keys are own names and in order. -/
theorem Document.record?_object (hfields : FieldsApart fields)
    (hkeys : members.map Prod.fst <+ ownNames fields) :
    record? fields (Json.object members).document = some (Record.ofMembers members) := by
  have hnamed : ∀ m ∈ members, fieldNamed fields m.1 = some m.1 := fun m hm =>
    hfields.named m.1 (hkeys.subset (List.mem_map_of_mem hm))
  have hnodup : (members.map fun m => m.1).Nodup := hfields.nodup.sublist hkeys
  have hall : namedFields fields [] (Json.memberDocuments members) =
      some (members.map fun m => (m.1, m.2.document)) := by
    rw [namedFields_eq_some_iff, namedMembers_of_named hnamed, List.map_map]
    exact ⟨Json.isSome_of_mem_memberDocuments, hnodup, fun _ _ => rfl, rfl⟩
  rw [Json.document, record?, hall]
  rfl

/-! ### What was written is read -/

/-- A required field is decoded as what it holds. -/
theorem Record.required_of_get? {r : Record} {d : Document} (h : r.get? name = some d) :
    r.required name decode = decode d := by
  rw [required, h, Option.bind_some]

theorem Record.required_of_text {r : Record} {s : String}
    (h : r.get? name = some (.string (some s))) : r.required name (·.text?) = some s :=
  required_of_get? h

/-- A value that is left out where there is none is read back, if no value is written as null. -/
theorem Record.nullable_of_written {r : Record} {a : Option α} {f : α → Json}
    (hget : r.get? name = a.map fun x => (f x).document)
    (hnull : ∀ x ∈ a, (f x).document ≠ .null) (hdecode : ∀ x ∈ a, decode (f x).document = some x) :
    r.nullable name decode = some a := by
  cases a with
  | none => simp [nullable, hget]
  | some x =>
    have hread := hdecode x rfl
    rw [nullable, hget, Option.map_some]
    -- What is written for a value is never null, so the first two cases do not come up.
    split
    · rename_i hnone
      cases hnone
    · rename_i hsome
      exact absurd (Option.some.inj hsome) (hnull x rfl)
    · rename_i d _ hd
      rw [← Option.some.inj hd, hread, Option.map_some]

theorem Json.documents_map (f : α → Json) (items : List α) :
    Json.documents (items.map f) = items.map fun a => (f a).document := by
  induction items with
  | nil => rfl
  | cons a items ih => rw [List.map_cons, documents, ih, List.map_cons]

/-- A list is decoded if each of its items is. -/
theorem mapM_eq_some_iff {β : Type} {f : β → Option α} {items : List β} {values : List α} :
    items.mapM f = some values ↔ List.Forall₂ (fun b a => f b = some a) items values := by
  induction items generalizing values with
  | nil => simp [eq_comm]
  | cons b items ih =>
    simp only [List.mapM_cons, Option.pure_def, Option.bind_eq_bind, Option.bind_eq_some_iff, ih]
    constructor
    · rintro ⟨a, ha, rest, hrest, heq⟩
      obtain rfl := Option.some.inj heq
      exact .cons ha hrest
    · rintro (_ | ⟨ha, hrest⟩)
      exact ⟨_, ha, _, hrest, rfl⟩

/-- A list is read from an array whose items can all be decoded. -/
theorem Document.list?_eq_some_iff {d : Document} {values : List α} :
    d.list? decode = some values ↔
      ∃ items, d = .array items ∧ List.Forall₂ (fun d a => decode d = some a) items values := by
  rw [← exists_congr fun items => and_congr_right' mapM_eq_some_iff]
  cases d <;> simp [list?]

/-- A list is read back, if each of its items is. -/
theorem Document.list?_of_written {items : List α} {f : α → Json}
    (h : ∀ a ∈ items, decode (f a).document = some a) :
    (Json.array (items.map f)).document.list? decode = some items := by
  refine list?_eq_some_iff.mpr ⟨_, by rw [Json.document], ?_⟩
  rw [Json.documents_map, List.forall₂_map_left_iff, List.forall₂_same]
  exact h

/-- A text is read back. -/
theorem Json.text?_document (s : String) : (Json.string s).document.text? = some s := rfl

/-- A number that fits is read back. -/
theorem Json.nat?_document {n bound : Nat} (h : n ≤ bound) :
    (Json.nat n).document.nat? bound = some n := by
  simp [Json.nat, Json.document, Document.nat?, h]

/-- A list of texts is read back. -/
theorem Document.list?_texts (items : List String) :
    (Json.texts items).document.list? (·.text?) = some items :=
  list?_of_written fun s _ => Json.text?_document s

/-! ### Where a value comes from -/

/-- A number that is read fits. -/
theorem Document.nat?_le {bound n : Nat} {d : Document} (h : d.nat? bound = some n) : n ≤ bound := by
  unfold nat? at h
  split at h
  · split at h
    · rename_i hz
      obtain rfl := Option.some.inj h
      simp only [Bool.and_eq_true, decide_eq_true_eq] at hz
      omega
    · cases h
  · cases h

/-- A required field that is read was decoded from something. -/
theorem Record.exists_of_required {r : Record} {a : α} (h : r.required name decode = some a) :
    ∃ d, decode d = some a := by
  obtain ⟨d, -, hd⟩ := Option.bind_eq_some_iff.mp h
  exact ⟨d, hd⟩

/-- A field that may be null was decoded from something if it is read as a value. -/
theorem Record.exists_of_nullable {r : Record} {a : α}
    (h : r.nullable name decode = some (some a)) : ∃ d, decode d = some a := by
  unfold nullable at h
  split at h
  · cases h
  · cases h
  · rename_i d _ _
    obtain ⟨x, hx, heq⟩ := Option.map_eq_some_iff.mp h
    exact ⟨d, by rw [hx, heq]⟩

/-- What is read for a field that may be left out is the default, or was read from a document. -/
theorem Record.eq_or_exists_of_defaulted {r : Record} {default a : α}
    (h : r.defaulted name default decode = some a) : a = default ∨ ∃ d, decode d = some a := by
  unfold defaulted at h
  split at h
  · exact .inl (Option.some.inj h).symm
  · exact .inr ⟨_, h⟩

/-- Every value of a list was read from one of its items. -/
theorem Document.exists_of_list? {d : Document} {values : List α}
    (h : d.list? decode = some values) : ∀ a ∈ values, ∃ item, decode item = some a := by
  obtain ⟨items, -, hitems⟩ := list?_eq_some_iff.mp h
  clear h
  intro a ha
  induction hitems with
  | nil => cases ha
  | cons hread _ ih =>
    rcases List.mem_cons.mp ha with rfl | ha
    · exact ⟨_, hread⟩
    · exact ih ha

/-- The items of a required list were each decoded from something. -/
theorem Record.exists_of_required_list? {r : Record} {values : List α}
    (h : r.required name (·.list? decode) = some values) :
    ∀ a ∈ values, ∃ item, decode item = some a := by
  obtain ⟨_, hlist⟩ := exists_of_required h
  exact Document.exists_of_list? hlist

end GuidedTour
