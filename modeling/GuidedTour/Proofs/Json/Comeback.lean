import GuidedTour.Proofs.Json.Accepted
import GuidedTour.Proofs.Json.Members
import GuidedTour.Proofs.Json.Writing

namespace GuidedTour

/-!
# Values that come back

A value is read back from what is written for it, unless it is nested too deep or the reader has to
choose between members with one key.

* `Json.IsPlain` — a value in which no object has a key twice, with its greatest number of levels;
* `Json.lastOfEachKey_eq_self` — where no key is given twice, every member is kept;
* `Json.valueWithin_document` — a plain value is the value of its document;
* `Json.parse_compact` — and if its numbers fit, it comes back from one line of JSON.
-/

namespace Json

variable {members : List (String × Json)} {key : String} {value : Json}

/-! ### Members that are kept -/

/-- A new key is put at the end. -/
theorem putMember_of_not_mem (h : key ∉ members.map Prod.fst) :
    putMember key value members = members ++ [(key, value)] := by
  induction members with
  | nil => rfl
  | cons m rest ih =>
    obtain ⟨k, v⟩ := m
    rw [List.map_cons, List.mem_cons, not_or] at h
    have hne : (k == key) = false := beq_eq_false_iff_ne.mpr (Ne.symm h.1)
    simp [putMember, hne, ih h.2]

/-- Where no key is given twice, nothing gives way. -/
theorem lastOfEachKey_eq_self (h : (members.map Prod.fst).Nodup) :
    lastOfEachKey members = members := by
  -- Each member comes behind those that are there before it.
  have hput : ∀ done : List (String × Json), ((done ++ members).map Prod.fst).Nodup →
      members.foldl (fun done m => putMember m.1 m.2 done) done = done ++ members := by
    clear h
    induction members with
    | nil => exact fun done _ => (List.append_nil done).symm
    | cons m rest ih =>
      intro done hdone
      have hnew : m.1 ∉ done.map Prod.fst := by
        rw [List.map_append, List.map_cons] at hdone
        exact fun hm => (List.nodup_append.mp hdone).2.2 m.1 hm m.1 List.mem_cons_self rfl
      rw [List.foldl_cons, putMember_of_not_mem hnew, ih _ (by simpa using hdone)]
      simp
  exact hput [] h

/-! ### Plain values -/

mutual

/-- No object in the value has a key twice, and at most so many arrays and objects lie inside one
another. -/
def IsPlain : Json → Nat → Prop
  | .null, _ | .bool _, _ | .number _, _ | .string _, _ => True
  | .array _, 0 => False
  | .array items, depth + 1 => ItemsPlain items depth
  | .object _, 0 => False
  | .object members, depth + 1 => (members.map Prod.fst).Nodup ∧ MembersPlain members depth

@[inherit_doc IsPlain]
def ItemsPlain : List Json → Nat → Prop
  | [], _ => True
  | item :: rest, depth => item.IsPlain depth ∧ ItemsPlain rest depth

@[inherit_doc IsPlain]
def MembersPlain : List (String × Json) → Nat → Prop
  | [], _ => True
  | (_, value) :: rest, depth => value.IsPlain depth ∧ MembersPlain rest depth

end

/-- Items are plain if each of them is. -/
theorem itemsPlain_iff {depth : Nat} {items : List Json} :
    ItemsPlain items depth ↔ ∀ item ∈ items, item.IsPlain depth := by
  induction items with
  | nil => simp [ItemsPlain]
  | cons item items ih => simp [ItemsPlain, ih]

theorem membersPlain_iff {depth : Nat} :
    MembersPlain members depth ↔ ∀ m ∈ members, m.2.IsPlain depth := by
  induction members with
  | nil => simp [MembersPlain]
  | cons m members ih => simp [MembersPlain, ih]

mutual

/-- A plain value comes back from its document. -/
theorem valueWithin_document : ∀ {depth : Nat} {value : Json}, value.IsPlain depth →
    value.document.valueWithin depth = some value
  | _, .null, _ => by simp [document, Document.valueWithin]
  | _, .bool _, _ => by simp [document, Document.valueWithin]
  | _, .number _, _ => by simp [document, Document.valueWithin]
  | _, .string _, _ => by simp [document, Document.valueWithin]
  | _ + 1, .array items, h => by
    rw [document, Document.valueWithin, valuesWithin_documents h, Option.map_some]
  | _ + 1, .object members, h => by
    rw [document, Document.valueWithin, membersWithin_memberDocuments h.2, Option.map_some,
      lastOfEachKey_eq_self h.1]

theorem valuesWithin_documents : ∀ {depth : Nat} {items : List Json}, ItemsPlain items depth →
    Document.valuesWithin depth (documents items) = some items
  | _, [], _ => by simp [documents, Document.valuesWithin]
  | _, _ :: _, h => by
    simp [documents, Document.valuesWithin, valueWithin_document h.1, valuesWithin_documents h.2]

theorem membersWithin_memberDocuments : ∀ {depth : Nat} {members : List (String × Json)},
    MembersPlain members depth →
    Document.membersWithin depth (memberDocuments members) = some members
  | _, [], _ => by simp [memberDocuments, Document.membersWithin]
  | _, _ :: _, h => by
    simp [memberDocuments, Document.membersWithin, valueWithin_document h.1,
      membersWithin_memberDocuments h.2]

end

/-- One line of JSON is read as the value that it was written from. -/
theorem document_of_compact (hfit : value.NumbersFit) :
    Document.parse value.compact = some value.document :=
  Document.parse_eq_some_iff.mpr (.of_spells (spells_compact hfit))

/-- A plain value whose numbers fit comes back from one line of JSON. -/
theorem parse_compact (hfit : value.NumbersFit) (hplain : value.IsPlain Document.maxDepth) :
    Json.parse value.compact = some value := by
  rw [Json.parse, document_of_compact hfit, Option.bind_some]
  exact valueWithin_document hplain

end Json

end GuidedTour
