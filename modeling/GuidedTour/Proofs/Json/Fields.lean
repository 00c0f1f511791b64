import GuidedTour.Proofs.Json.Comeback

namespace GuidedTour

open scoped List

/-!
# Objects with fields that may be left out

An object is often written from a row of fields with different keys, some of which have no value and
are left out.

* `Json.ofFields` — the members of such an object;
* `Json.lookup_ofFields` — under a key stands the value of its field, if it has one;
* `Json.keys_ofFields` — the keys are those of fields, in their order;
* `Json.numbersFit_ofFields`, `Json.isPlain_ofFields` — what makes the object come back from JSON;
* `Json.nonempty?` — a list as the value of a field that is left out where the list is empty;
* `Json.Lists`, `Json.HasOnly` — what such an object holds under a key, and which keys it may have.
-/

namespace Json

variable {α : Type} {fields : List (String × Option Json)} {m : String × Json}

/-- The members of an object with these fields. -/
def ofFields (fields : List (String × Option Json)) : List (String × Json) :=
  fields.filterMap fun f => f.2.map fun value => (f.1, value)

/-- The members are the fields that have a value. -/
theorem mem_ofFields : m ∈ ofFields fields ↔ (m.1, some m.2) ∈ fields := by
  simp only [ofFields, List.mem_filterMap, Option.map_eq_some_iff, Prod.exists]
  constructor
  · rintro ⟨key, field, hmem, value, rfl, rfl⟩
    exact hmem
  · exact fun hmem => ⟨m.1, some m.2, hmem, m.2, rfl, rfl⟩

/-- The keys are some of those of the fields, in their order. -/
theorem keys_ofFields (fields : List (String × Option Json)) :
    (ofFields fields).map Prod.fst <+ fields.map Prod.fst := by
  induction fields with
  | nil => exact .slnil
  | cons f rest ih =>
    obtain ⟨key, _ | value⟩ := f
    · exact ih.cons key
    · exact ih.cons_cons key

/-- Under a key stands the value of the field with the key, if it has one. -/
theorem lookup_ofFields (h : (fields.map Prod.fst).Nodup) (key : String) :
    (ofFields fields).lookup key = (fields.lookup key).join := by
  induction fields with
  | nil => rfl
  | cons f rest ih =>
    obtain ⟨k, field⟩ := f
    rw [List.map_cons, List.nodup_cons] at h
    rw [List.lookup_cons]
    by_cases hkey : key = k
    · subst hkey
      -- no other field has the key, so nothing else stands under it
      have hnone : (ofFields rest).lookup key = none := by
        rw [List.lookup_eq_none_iff]
        intro m hm
        have hne : key ≠ m.1 :=
          fun heq => h.1 ((keys_ofFields rest).subset (heq ▸ List.mem_map_of_mem hm))
        simpa using hne
      cases field with
      | none => simpa [ofFields] using hnone
      | some value => simp [ofFields]
    · have hne : (key == k) = false := beq_eq_false_iff_ne.mpr hkey
      rw [hne, ← ih h.2]
      cases field with
      | none => rfl
      | some value =>
        show ((k, value) :: ofFields rest).lookup key = _
        rw [List.lookup_cons, hne]

theorem membersFit_iff {members : List (String × Json)} :
    MembersFit members ↔ ∀ m ∈ members, m.2.NumbersFit := by
  induction members with
  | nil => simp [MembersFit]
  | cons m members ih => simp [MembersFit, ih]

/-- Numbers fit in items if they do in each of them. -/
theorem itemsFit_iff {items : List Json} :
    ItemsFit items ↔ ∀ item ∈ items, item.NumbersFit := by
  induction items with
  | nil => simp [ItemsFit]
  | cons item items ih => simp [ItemsFit, ih]

/-- Numbers fit in an object of fields if they do in the value of each field. -/
theorem numbersFit_ofFields (h : ∀ f ∈ fields, ∀ value ∈ f.2, value.NumbersFit) :
    (object (ofFields fields)).NumbersFit :=
  membersFit_iff.mpr fun m hm => h _ (mem_ofFields.mp hm) m.2 rfl

/-- An object of fields with different keys is one level deeper than its values. -/
theorem isPlain_ofFields {depth : Nat} (hkeys : (fields.map Prod.fst).Nodup)
    (h : ∀ f ∈ fields, ∀ value ∈ f.2, value.IsPlain depth) :
    (object (ofFields fields)).IsPlain (depth + 1) :=
  ⟨hkeys.sublist (keys_ofFields fields),
    membersPlain_iff.mpr fun m hm => h _ (mem_ofFields.mp hm) m.2 rfl⟩

/-! ### Lists -/

/-- A list of values, if it is not empty. -/
def nonempty? (items : List Json) : Option Json := if items.isEmpty then none else some (.array items)

/-- Numbers fit in a list if they do in each of its items. -/
theorem numbersFit_nonempty? {f : α → Json} {items : List α}
    (h : ∀ a ∈ items, (f a).NumbersFit) :
    ∀ value ∈ nonempty? (items.map f), value.NumbersFit := by
  intro value hvalue
  unfold nonempty? at hvalue
  split at hvalue
  · cases hvalue
  · obtain rfl := Option.some.inj hvalue
    exact itemsFit_iff.mpr (List.forall_mem_map.mpr h)

/-- A list is one level deeper than its items. -/
theorem isPlain_nonempty? {depth : Nat} {f : α → Json} {items : List α}
    (h : ∀ a ∈ items, (f a).IsPlain depth) :
    ∀ value ∈ nonempty? (items.map f), value.IsPlain (depth + 1) := by
  intro value hvalue
  unfold nonempty? at hvalue
  split at hvalue
  · cases hvalue
  · obtain rfl := Option.some.inj hvalue
    exact itemsPlain_iff.mpr (List.forall_mem_map.mpr h)

/-- A list under a key of an object. It is left out where it is empty; else its values stand for the
items, one for each and in their order. -/
structure Lists (value : Json) (key : String) (stands : α → Json → Prop) (items : List α) :
    Prop where
  absent : items = [] → value.member? key = none
  present : items ≠ [] →
    ∃ values, value.member? key = some (.array values) ∧ List.Forall₂ stands items values

/-- An object whose keys are among some. -/
structure HasOnly (value : Json) (keys : List String) : Prop where
  isObject : value.isObject = true
  keys : ∀ key, (value.member? key).isSome = true → key ∈ keys

theorem forall₂_map {stands : α → Json → Prop} {f : α → Json} {items : List α}
    (h : ∀ a ∈ items, stands a (f a)) : List.Forall₂ stands items (items.map f) := by
  rw [List.forall₂_map_right_iff, List.forall₂_same]
  exact h

/-- A field that is left out when its list is empty lists the items. -/
theorem lists_of_nonempty? {value : Json} {key : String} {stands : α → Json → Prop} {f : α → Json}
    {items : List α} (h : value.member? key = nonempty? (items.map f))
    (hstands : ∀ a ∈ items, stands a (f a)) : value.Lists key stands items where
  absent := by
    rintro rfl
    exact h
  present := by
    intro hne
    have hmapped : (items.map f).isEmpty = false := by simpa using hne
    rw [nonempty?, hmapped] at h
    exact ⟨items.map f, h, forall₂_map hstands⟩

/-- An object of fields has only the keys of the fields. -/
theorem hasOnly_ofFields (fields : List (String × Option Json)) :
    (object (ofFields fields)).HasOnly (fields.map Prod.fst) where
  isObject := rfl
  keys := by
    intro key hkey
    obtain ⟨value, hvalue⟩ := Option.isSome_iff_exists.mp hkey
    obtain ⟨before, after, heq, -⟩ := List.lookup_eq_some_iff.mp hvalue
    refine (keys_ofFields fields).subset ?_
    rw [heq]
    simp

end Json

end GuidedTour
