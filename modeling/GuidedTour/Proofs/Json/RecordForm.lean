import GuidedTour.Json.Record
import Mathlib.Data.List.Nodup

namespace GuidedTour

open scoped List

/-!
# What a document gives for a record

An object gives the fields that its members name; where each field has one name, an array gives them
by their order as well.

* `Document.namedFields_eq_some_iff` — which fields an object gives, and when it is refused;
* `Document.Holds` — what stands at a field;
* `Document.IsRecord`, `Document.record?_singleNames_iff` — which documents give a record;
* `Document.get?_recordOf` — the record holds what stands at its fields;
* `Document.Gives`, `Document.GivesOr` — what a field says that may be null, and one that may be
  left out; `optional_eq_some_iff` and `defaulted_eq_some_iff` read them.
-/

variable {α : Type} {names : List String} {name : String} {d v : Document}
  {members : List (Option String × Document)} {given : List (String × Document)} {r : Record}
  {decode : Document → Option α} {reads : Document → α → Prop}

/-- Fields that have one name each. -/
def singleNames (names : List String) : List (List String) := names.map fun name => [name]

/-- A field with one name only is found by that name. -/
theorem fieldNamed_singleNames (names : List String) (key : String) :
    Document.fieldNamed (singleNames names) key = if key ∈ names then some key else none := by
  unfold singleNames
  induction names with
  | nil => rfl
  | cons name names ih =>
    unfold Document.fieldNamed at ih ⊢
    rw [List.map_cons, List.find?_cons]
    by_cases hkey : key = name
    · subst hkey
      simp
    · have hother : [name].contains key = false := by simpa using hkey
      rw [hother, ih]
      simp [hkey]

/-- In a list that names nothing twice, a value is found under its name. -/
theorem lookup_eq_some_iff_mem {β : Type} {l : List (String × β)} {b : β}
    (h : (l.map Prod.fst).Nodup) : l.lookup name = some b ↔ (name, b) ∈ l := by
  induction l with
  | nil => simp
  | cons m rest ih =>
    obtain ⟨key, value⟩ := m
    rw [List.map_cons, List.nodup_cons] at h
    obtain ⟨hkey, hrest⟩ := h
    rw [List.lookup_cons, List.mem_cons, Prod.mk.injEq]
    by_cases hname : name = key
    · -- none of the others has the name of the first
      subst hname
      have hnot : (name, b) ∉ rest := fun hm => hkey (List.mem_map.mpr ⟨_, hm, rfl⟩)
      simp [hnot, eq_comm]
    · have hne : (name == key) = false := by simpa using hname
      simp [hne, hname, ih hrest]

/-- Items are paired with the first of the names. -/
theorem keys_zip_sublist {β : Type} (names : List String) (items : List β) :
    (names.zip items).map Prod.fst <+ names := by
  induction names generalizing items with
  | nil => exact .slnil
  | cons name names ih =>
    cases items with
    | nil => exact List.nil_sublist _
    | cons item items => exact (ih items).cons_cons name

namespace Document

/-! ### The fields of an object -/

/-- The members that name a field, each under the own name of its field. -/
def namedMembers (fields : List (List String)) (members : List (Option String × Document)) :
    List (String × Document) :=
  members.filterMap fun m => (m.1.bind (fieldNamed fields)).map fun name => (name, m.2)

/-- A member counts if it has the name of a field. -/
theorem namedMembers_cons (fields : List (List String)) (key : String) (value : Document)
    (rest : List (Option String × Document)) :
    namedMembers fields ((some key, value) :: rest) =
      ((fieldNamed fields key).map fun name => (name, value)).toList ++
        namedMembers fields rest := by
  unfold namedMembers
  cases h : fieldNamed fields key <;> simp [h]

/-- The fields of an object are taken one after another, as long as none of them is taken already.
-/
theorem namedFields_eq_some_iff {fields : List (List String)} {done : List (String × Document)} :
    namedFields fields done members = some given ↔
      (∀ m ∈ members, m.1.isSome = true) ∧ ((namedMembers fields members).map Prod.fst).Nodup ∧
        (∀ name ∈ (namedMembers fields members).map Prod.fst, done.lookup name = none) ∧
        given = done ++ namedMembers fields members := by
  induction members generalizing done with
  | nil =>
    show some done = some given ↔ _
    rw [Option.some.injEq, eq_comm]
    simp [namedMembers]
  | cons m rest ih =>
    obtain ⟨_ | key, value⟩ := m
    · -- a key without a text
      simp [namedFields]
    · rw [namedFields, namedMembers_cons]
      cases hkey : fieldNamed fields key with
      | none => simp [ih]
      | some name =>
        rw [Option.map_some, Option.toList_some, List.singleton_append]
        cases hdone : done.lookup name with
        | some taken =>
          -- the object is refused, and the field is not free
          simp only [hdone, Option.isSome_some, if_true, reduceCtorEq, false_iff]
          rintro ⟨-, -, hfree, -⟩
          have hname := hfree name List.mem_cons_self
          rw [hdone] at hname
          cases hname
        | none =>
          -- from here on the field counts as taken
          have hlookup : ∀ other, (done ++ [(name, value)]).lookup other = none ↔
              done.lookup other = none ∧ other ≠ name := by
            intro other
            rw [List.lookup_append, Option.or_eq_none_iff, List.lookup_cons,
              ← beq_eq_false_iff_ne]
            cases other == name <;> simp
          simp only [hdone, Option.isSome_none, Bool.false_eq_true, if_false, ih, List.map_cons,
            List.nodup_cons, List.forall_mem_cons, Option.isSome_some, hlookup, true_and,
            List.append_assoc, List.singleton_append]
          refine and_congr_right fun _ => ?_
          constructor
          · rintro ⟨hnodup, hfree, hgiven⟩
            have hnew : name ∉ (namedMembers fields rest).map Prod.fst :=
              fun hm => (hfree name hm).2 rfl
            exact ⟨⟨hnew, hnodup⟩, fun other hother => (hfree other hother).1, hgiven⟩
          · rintro ⟨⟨hnew, hnodup⟩, hfree, hgiven⟩
            refine ⟨hnodup, fun other hother => ⟨hfree other hother, ?_⟩, hgiven⟩
            rintro rfl
            exact hnew hother

/-- With one name for each field, the members that count are those with its name. -/
theorem mem_namedMembers_singleNames (hname : name ∈ names) :
    (name, v) ∈ namedMembers (singleNames names) members ↔ (some name, v) ∈ members := by
  unfold namedMembers
  rw [List.mem_filterMap]
  constructor
  · rintro ⟨⟨_ | key, value⟩, hm, heq⟩
    · cases heq
    · obtain ⟨other, hother, hpair⟩ := Option.map_eq_some_iff.mp heq
      obtain ⟨rfl, rfl⟩ := Prod.mk.inj hpair
      rw [Option.bind_some, fieldNamed_singleNames] at hother
      split at hother
      · obtain rfl := Option.some.inj hother
        exact hm
      · cases hother
  · exact fun hm => ⟨_, hm, by simp [fieldNamed_singleNames, hname]⟩

/-! ### Records -/

/-- What stands at a field: the value of a member with its name, or the item at its place. -/
def Holds (d : Document) (names : List String) (name : String) (v : Document) : Prop :=
  match d with
  | .object members => (some name, v) ∈ members
  | .array items => (name, v) ∈ names.zip items
  | _ => False

/-- A document that gives a record: an object whose keys are texts and that names no field twice, or
an array without more items than there are fields. -/
def IsRecord (names : List String) : Document → Prop
  | .object members => (∀ m ∈ members, m.1.isSome = true) ∧
      ((namedMembers (singleNames names) members).map Prod.fst).Nodup
  | .array items => items.length ≤ names.length
  | _ => False

/-- The record that a document gives, if it gives one. -/
def recordOf (names : List String) : Document → Record
  | .object members => ⟨namedMembers (singleNames names) members, false⟩
  | .array items => ⟨names.zip items, true⟩
  | _ => ⟨[], false⟩

/-- A document is read as a record if it is one, and then as its record. -/
theorem record?_singleNames_iff :
    d.record? (singleNames names) = some r ↔ d.IsRecord names ∧ r = d.recordOf names := by
  cases d with
  | object members =>
    unfold record? IsRecord recordOf
    rw [Option.map_eq_some_iff]
    simp only [namedFields_eq_some_iff, List.lookup_nil, List.nil_append, implies_true,
      true_and]
    constructor
    · rintro ⟨given, ⟨hkeys, hnodup, rfl⟩, rfl⟩
      exact ⟨⟨hkeys, hnodup⟩, rfl⟩
    · rintro ⟨⟨hkeys, hnodup⟩, rfl⟩
      exact ⟨_, ⟨hkeys, hnodup, rfl⟩, rfl⟩
  -- An array gives its items to the names in order, and may have no more of them.
  | array items =>
    have howned : (singleNames names).filterMap List.head? = names := by
      unfold singleNames
      simp [List.filterMap_map, Function.comp_def]
    have hlength : (singleNames names).length = names.length := List.length_map _
    show (if (singleNames names).length < items.length then none else
      some ⟨((singleNames names).filterMap List.head?).zip items, true⟩) = some r ↔
        items.length ≤ names.length ∧ r = ⟨names.zip items, true⟩
    rw [howned, hlength]
    by_cases hfits : items.length ≤ names.length
    · rw [if_neg (Nat.not_lt.mpr hfits), and_iff_right hfits, Option.some.injEq, eq_comm]
    · rw [if_pos (Nat.lt_of_not_le hfits)]
      simp [hfits]
  | _ => simp [record?, IsRecord]

/-- What is read from a record is read from a document that is one. -/
theorem record?_bind_eq_some_iff {β : Type} {f : Record → Option β} {b : β} :
    (d.record? (singleNames names)).bind f = some b ↔
      d.IsRecord names ∧ f (d.recordOf names) = some b := by
  rw [Option.bind_eq_some_iff]
  simp only [record?_singleNames_iff]
  constructor
  · rintro ⟨_, ⟨hd, rfl⟩, hf⟩
    exact ⟨hd, hf⟩
  · rintro ⟨hd, hf⟩
    exact ⟨_, ⟨hd, rfl⟩, hf⟩

/-- A record finds what stands at its fields. -/
theorem get?_recordOf (hnames : names.Nodup) (hd : d.IsRecord names) (hname : name ∈ names) :
    (d.recordOf names).get? name = some v ↔ d.Holds names name v := by
  cases d with
  | object members =>
    unfold recordOf Record.get?
    rw [lookup_eq_some_iff_mem hd.2]
    exact mem_namedMembers_singleNames hname
  | array items =>
    have hkeys : ((names.zip items).map Prod.fst).Nodup :=
      hnames.sublist (keys_zip_sublist names items)
    show (names.zip items).lookup name = some v ↔ (name, v) ∈ names.zip items
    exact lookup_eq_some_iff_mem hkeys
  | _ => exact absurd hd id

/-- At a field of a record stands one value at most. -/
theorem Holds.unique {w : Document} (hv : d.Holds names name v) (hw : d.Holds names name w)
    (hnames : names.Nodup) (hd : d.IsRecord names) (hname : name ∈ names) : v = w := by
  rw [← get?_recordOf hnames hd hname] at hv hw
  exact Option.some.inj (hv.symm.trans hw)

/-! ### Fields that may be missing -/

/-- What a field says that may be null, and that an object may leave out. -/
def Gives (names : List String) (name : String) (reads : Document → α → Prop) (d : Document) :
    Option α → Prop
  | some a => ∃ v, d.Holds names name v ∧ v ≠ .null ∧ reads v a
  | none => d.Holds names name .null ∨
      (∃ members, d = .object members) ∧ ∀ v, ¬ d.Holds names name v

/-- What a field says that may be left out, or the default. -/
def GivesOr (names : List String) (name : String) (default : α) (reads : Document → α → Prop)
    (d : Document) (a : α) : Prop :=
  (∃ v, d.Holds names name v ∧ reads v a) ∨ a = default ∧ ∀ v, ¬ d.Holds names name v

/-- What stands at a field is what the field says, unless it is null. -/
theorem Gives.of_holds {a : Option α} (h : d.Gives names name reads a)
    (hv : d.Holds names name v) (hnames : names.Nodup) (hd : d.IsRecord names)
    (hname : name ∈ names) : v = .null ∧ a = none ∨ ∃ b, a = some b ∧ reads v b := by
  cases a with
  | none =>
    rcases h with hnull | ⟨-, hnone⟩
    · exact .inl ⟨hv.unique hnull hnames hd hname, rfl⟩
    · exact absurd hv (hnone v)
  | some b =>
    obtain ⟨w, hw, -, hread⟩ := h
    obtain rfl := hv.unique hw hnames hd hname
    exact .inr ⟨b, rfl, hread⟩

/-- What is given for a field that is there is read from what it holds. -/
theorem GivesOr.of_holds {default a : α} (h : d.GivesOr names name default reads a)
    (hv : d.Holds names name v) (hnames : names.Nodup) (hd : d.IsRecord names)
    (hname : name ∈ names) : reads v a := by
  rcases h with ⟨w, hw, hread⟩ | ⟨-, hnone⟩
  · obtain rfl := hv.unique hw hnames hd hname
    exact hread
  · exact absurd hv (hnone v)

section

variable (hnames : names.Nodup) (hd : d.IsRecord names) (hname : name ∈ names)
  (hreads : ∀ v a, decode v = some a ↔ reads v a)
include hnames hd hname hreads

/-- A field that may be missing or null is decoded as what is given for it. -/
theorem optional_eq_some_iff {a : Option α} :
    (d.recordOf names).optional name decode = some a ↔ d.Gives names name reads a := by
  have hget := fun v => get?_recordOf (v := v) hnames hd hname
  unfold Record.optional Record.nullable
  cases hvalue : (d.recordOf names).get? name with
  | none =>
    -- nothing stands there, which only an object may do
    simp only [hvalue, reduceCtorEq, false_iff] at hget
    have hgives : d.Gives names name reads a ↔ a = none ∧ ∃ members, d = .object members := by
      cases a <;> simp [Gives, hget]
    rw [hgives]
    cases d with
    | object members => simp [recordOf, eq_comm]
    | array items => simp [recordOf]
    | _ => exact absurd hd id
  | some v =>
    simp only [hvalue, Option.some.injEq] at hget
    have hgives : d.Gives names name reads a ↔
        (v = .null ∧ a = none) ∨ (v ≠ .null ∧ ∃ b, a = some b ∧ reads v b) := by
      cases a <;> simp [Gives, ← hget]
    rw [hgives]
    simp only [Option.isNone_some, Bool.and_false, Bool.false_eq_true, if_false]
    split
    · next h => cases h
    · next h =>
      obtain rfl := Option.some.inj h
      simp [eq_comm]
    · next w hnull h =>
      obtain rfl := Option.some.inj h
      have hne : v ≠ .null := fun hv => hnull (by rw [hv])
      rw [Option.map_eq_some_iff]
      simp [hne, hreads, eq_comm, and_comm]

/-- A field with a default is decoded as what is given for it. -/
theorem defaulted_eq_some_iff {default a : α} :
    (d.recordOf names).defaulted name default decode = some a ↔
      d.GivesOr names name default reads a := by
  have hget := fun v => get?_recordOf (v := v) hnames hd hname
  unfold Record.defaulted GivesOr
  cases hvalue : (d.recordOf names).get? name with
  | none =>
    simp only [hvalue, reduceCtorEq, false_iff] at hget
    simp [hget, eq_comm]
  | some v =>
    simp only [hvalue, Option.some.injEq] at hget
    simp [← hget, hreads]

end

end Document

end GuidedTour
