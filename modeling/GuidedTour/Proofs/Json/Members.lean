import GuidedTour.Proofs.Json.Record

namespace GuidedTour

/-!
# The fields among the members of an object

An object may name the fields of a record by any of their names, in any order, and among other
members.

* `Json.fieldMembers` — the members that name a field, each under the own name of its field;
* `Document.record?_object_eq_some_iff` — an object gives a record exactly if no field is named
  twice, and then the record holds the members that name a field;
* `Json.nodup_fieldMembers_insert`, `Json.lookup_fieldMembers_insert` — what one more member
  changes;
* `Document.nodup_of_valueWithin` — an object that is read has each key once.
-/

variable {fields : List (List String)} {members before after : List (String × Json)}
  {name key : String} {value : Json}

namespace Json

/-- A member under the own name of the field that it names. -/
def fieldMember? (fields : List (List String)) (m : String × Json) : Option (String × Json) :=
  (Document.fieldNamed fields m.1).map fun name => (name, m.2)

/-- The members that name a field, each under the own name of its field. -/
def fieldMembers (fields : List (List String)) (members : List (String × Json)) :
    List (String × Json) :=
  members.filterMap (fieldMember? fields)

theorem fieldMembers_cons_other (rest : List (String × Json))
    (h : Document.fieldNamed fields key = none) :
    fieldMembers fields ((key, value) :: rest) = fieldMembers fields rest := by
  simp [fieldMembers, fieldMember?, h]

/-- A member that has the name of a field counts for the field. -/
theorem fieldMembers_cons_field (rest : List (String × Json))
    (h : Document.fieldNamed fields key = some name) :
    fieldMembers fields ((key, value) :: rest) = (name, value) :: fieldMembers fields rest := by
  simp [fieldMembers, fieldMember?, h]

/-- What counts for a field are the values of the keys that name it. -/
theorem mem_fieldMembers :
    (name, value) ∈ fieldMembers fields members ↔
      ∃ key, (key, value) ∈ members ∧ Document.fieldNamed fields key = some name := by
  simp only [fieldMembers, fieldMember?, List.mem_filterMap, Option.map_eq_some_iff, Prod.exists,
    Prod.mk.injEq]
  constructor
  · rintro ⟨key, v, hm, n, hn, rfl, rfl⟩
    exact ⟨key, hm, hn⟩
  · rintro ⟨key, hm, hn⟩
    exact ⟨key, value, hm, name, hn, rfl, rfl⟩

/-- The fields that are named are those of the keys. -/
theorem keys_fieldMembers (fields : List (List String)) (members : List (String × Json)) :
    (fieldMembers fields members).map Prod.fst =
      (members.map Prod.fst).filterMap (Document.fieldNamed fields) := by
  induction members with
  | nil => rfl
  | cons m rest ih =>
    obtain ⟨key, value⟩ := m
    cases h : Document.fieldNamed fields key with
    | none => rw [fieldMembers_cons_other rest h, List.map_cons, List.filterMap_cons_none h, ih]
    | some name =>
      rw [fieldMembers_cons_field rest h, List.map_cons, List.map_cons,
        List.filterMap_cons_some h, ih]

end Json

/-! ### The record of an object -/

/-- The members that name a field are the same as documents. -/
theorem Document.namedMembers_memberDocuments (members : List (String × Json)) :
    namedMembers fields (Json.memberDocuments members) =
      (Json.fieldMembers fields members).map fun m => (m.1, m.2.document) := by
  induction members with
  | nil => rfl
  | cons m rest ih =>
    obtain ⟨key, value⟩ := m
    rw [Json.memberDocuments, namedMembers_cons, ih]
    cases hkey : fieldNamed fields key with
    | none =>
      rw [Json.fieldMembers_cons_other rest hkey]
      rfl
    | some name =>
      rw [Json.fieldMembers_cons_field rest hkey]
      rfl

/-- **The record of an object.** An object gives a record exactly if no field is named twice, and
then the record holds the members that name a field. -/
theorem Document.record?_object_eq_some_iff {r : Record} :
    record? fields (Json.object members).document = some r ↔
      ((Json.fieldMembers fields members).map Prod.fst).Nodup ∧
        r = Record.ofMembers (Json.fieldMembers fields members) := by
  have hkeys : ((Json.fieldMembers fields members).map fun m => (m.1, m.2.document)).map Prod.fst =
      (Json.fieldMembers fields members).map Prod.fst := List.map_map
  rw [Json.document, record?, Option.map_eq_some_iff]
  simp only [namedFields_eq_some_iff, namedMembers_memberDocuments, hkeys, List.lookup_nil,
    List.nil_append, implies_true, true_and]
  constructor
  · rintro ⟨given, ⟨-, hnodup, rfl⟩, rfl⟩
    exact ⟨hnodup, rfl⟩
  · rintro ⟨hnodup, rfl⟩
    exact ⟨_, ⟨Json.isSome_of_mem_memberDocuments, hnodup, rfl⟩, rfl⟩

/-! ### One more member -/

namespace Json

/-- One more field among the members. -/
theorem fieldMembers_insert (h : Document.fieldNamed fields key = some name) :
    fieldMembers fields (before ++ (key, value) :: after) =
      fieldMembers fields before ++ (name, value) :: fieldMembers fields after := by
  rw [fieldMembers, List.filterMap_append]
  exact congrArg _ (fieldMembers_cons_field after h)

theorem fieldMembers_append :
    fieldMembers fields (before ++ after) =
      fieldMembers fields before ++ fieldMembers fields after :=
  List.filterMap_append

/-- A new field is named once, and leaves the others as they were. -/
theorem nodup_fieldMembers_insert (h : Document.fieldNamed fields key = some name) :
    ((fieldMembers fields (before ++ (key, value) :: after)).map Prod.fst).Nodup ↔
      name ∉ (fieldMembers fields (before ++ after)).map Prod.fst ∧
        ((fieldMembers fields (before ++ after)).map Prod.fst).Nodup := by
  rw [fieldMembers_insert h, fieldMembers_append, List.map_append, List.map_cons,
    List.nodup_middle, List.nodup_cons, List.map_append]

/-- A new field is found under its name, and all others as before. -/
theorem lookup_fieldMembers_insert (h : Document.fieldNamed fields key = some name)
    (hnew : name ∉ (fieldMembers fields (before ++ after)).map Prod.fst) (other : String) :
    (fieldMembers fields (before ++ (key, value) :: after)).lookup other =
      if other = name then some value
      else (fieldMembers fields (before ++ after)).lookup other := by
  rw [fieldMembers_append, List.map_append, List.mem_append, not_or] at hnew
  have hbefore : (fieldMembers fields before).lookup name = none := by
    rw [List.lookup_eq_none_iff]
    intro m hm
    have hne : name ≠ m.1 := fun heq => hnew.1 (heq ▸ List.mem_map_of_mem hm)
    simpa using hne
  rw [fieldMembers_insert h, fieldMembers_append, List.lookup_append, List.lookup_append,
    List.lookup_cons]
  -- The field is new, so nothing before it is found under its name.
  by_cases hother : other = name
  · subst hother
    simp [hbefore]
  · have hne : (other == name) = false := by simpa using hother
    rw [if_neg hother, hne]

/-! ### Objects that are read -/

/-- A key that is there stays in its place, and a new one comes last. -/
theorem keys_putMember (key : String) (value : Json) (members : List (String × Json)) :
    (putMember key value members).map Prod.fst =
      if key ∈ members.map Prod.fst then members.map Prod.fst
      else members.map Prod.fst ++ [key] := by
  induction members with
  | nil => rfl
  | cons m rest ih =>
    obtain ⟨k, v⟩ := m
    rw [putMember]
    -- The first member has the key, or the rest is searched for it.
    by_cases hkey : k = key
    · subst hkey
      simp
    · have hne : (k == key) = false := by simpa using hkey
      have hother : key ∈ k :: rest.map Prod.fst ↔ key ∈ rest.map Prod.fst := by
        rw [List.mem_cons, or_iff_right (Ne.symm hkey)]
      simp only [hne, Bool.false_eq_true, if_false, List.map_cons, ih, hother]
      split <;> rfl

/-- Putting a member in repeats no key. -/
theorem nodup_putMember (h : (members.map Prod.fst).Nodup) :
    ((putMember key value members).map Prod.fst).Nodup := by
  rw [keys_putMember]
  split
  · exact h
  · rename_i hnew
    rw [← List.concat_eq_append]
    exact h.concat hnew

/-- Of a key that is given several times only the last member is kept. -/
theorem nodup_lastOfEachKey (members : List (String × Json)) :
    ((lastOfEachKey members).map Prod.fst).Nodup := by
  -- Each member that is put keeps the keys distinct, whatever is there before it.
  have hkept : ∀ done : List (String × Json), (done.map Prod.fst).Nodup →
      ((members.foldl (fun done m => putMember m.1 m.2 done) done).map Prod.fst).Nodup := by
    induction members with
    | nil => exact fun done hdone => hdone
    | cons m rest ih => exact fun done hdone => ih _ (nodup_putMember hdone)
  exact hkept [] .nil

end Json

/-- An object that is read has each key once, whatever the text repeats. -/
theorem Document.nodup_of_valueWithin {depth : Nat} {d : Document}
    (h : d.valueWithin depth = some (.object members)) : (members.map Prod.fst).Nodup := by
  cases d with
  | null => cases h
  | bool b => cases h
  | number n => cases n <;> cases h
  | string s => cases s <;> cases h
  | array items =>
    cases depth with
    | zero => cases h
    | succ depth =>
      obtain ⟨values, -, hvalue⟩ := Option.map_eq_some_iff.mp h
      cases hvalue
  | object given =>
    cases depth with
    | zero => cases h
    | succ depth =>
      obtain ⟨values, -, hvalue⟩ := Option.map_eq_some_iff.mp h
      obtain rfl := Json.object.inj hvalue
      exact Json.nodup_lastOfEachKey values

end GuidedTour
