import GuidedTour.Outline.Basic
import Mathlib.Data.String.Basic

namespace GuidedTour

/-!
# Tables and lists of texts in order

Entry points and dependencies are put in order one by one. A list of texts is a table whose entries
hold nothing, so what is proved of tables is true of lists.

* `IsSorted` — a table in order of its keys, without repetition;
* `isSorted_orderedEntries`, `orderedEntries_eq_self_iff` — putting a table in order gives such a
  table, and leaves a table as it is exactly if it is one;
* `textTable_orderedTexts` — a list put in order is the table of its texts put in order;
* `pairwise_orderedTexts`, `orderedTexts_eq_self_iff` — so the same is true of lists of texts.
-/

variable {α : Type} {key : String} {value : α} {entries : List (String × α)} {texts : List String}

/-! ### Tables -/

/-- A table in order of its keys, without repetition. -/
def IsSorted (entries : List (String × α)) : Prop := entries.Pairwise fun m n => m.1 < n.1

instance (entries : List (String × α)) : Decidable (IsSorted entries) :=
  inferInstanceAs (Decidable (entries.Pairwise fun m n => m.1 < n.1))

/-- An entry of the table after one more was put in is the new one or was there before. -/
theorem eq_or_mem_of_mem_insertEntry {m : String × α} (h : m ∈ insertEntry key value entries) :
    m = (key, value) ∨ m ∈ entries := by
  induction entries with
  | nil => exact .inl (List.mem_singleton.mp h)
  | cons entry rest ih =>
    unfold insertEntry at h
    split at h
    · exact List.mem_cons.mp h
    · split at h
      · exact (List.mem_cons.mp h).imp_right (List.mem_cons_of_mem entry)
      · rcases List.mem_cons.mp h with rfl | h
        · exact .inr List.mem_cons_self
        · exact (ih h).imp_right (List.mem_cons_of_mem entry)

/-- A sorted table with one more entry is sorted. -/
theorem isSorted_insertEntry (h : IsSorted entries) : IsSorted (insertEntry key value entries) := by
  induction entries with
  | nil => exact List.pairwise_singleton _ _
  | cons entry rest ih =>
    obtain ⟨hfirst, hrest⟩ := List.pairwise_cons.mp h
    unfold insertEntry
    split
    · -- before all others
      rename_i hlt
      refine List.pairwise_cons.mpr ⟨fun m hm => ?_, h⟩
      rcases List.mem_cons.mp hm with rfl | hm
      · exact hlt
      · exact hlt.trans (hfirst m hm)
    · rename_i hnotlt
      split
      · -- in place of the first, which has the same key
        rename_i heq
        obtain rfl := eq_of_beq heq
        exact List.pairwise_cons.mpr ⟨hfirst, hrest⟩
      · -- somewhere after the first
        rename_i hne
        have hlt : entry.1 < key := lt_of_le_of_ne (not_lt.mp hnotlt) fun h => hne (by simp [h])
        refine List.pairwise_cons.mpr ⟨fun m hm => ?_, ih hrest⟩
        rcases eq_or_mem_of_mem_insertEntry hm with rfl | hm
        · exact hlt
        · exact hfirst m hm

/-- Entries put in order are sorted. -/
theorem isSorted_orderedEntries (entries : List (String × α)) :
    IsSorted (orderedEntries entries) :=
  entries.foldlRecOn _ List.Pairwise.nil fun _ h _ _ => isSorted_insertEntry h

/-- An entry whose key is behind all others goes to the end. -/
theorem insertEntry_of_lt (h : ∀ m ∈ entries, m.1 < key) :
    insertEntry key value entries = entries ++ [(key, value)] := by
  induction entries with
  | nil => rfl
  | cons entry rest ih =>
    have hlt : entry.1 < key := h entry List.mem_cons_self
    have hne : (key == entry.1) = false := beq_eq_false_iff_ne.mpr hlt.ne'
    rw [insertEntry, if_neg hlt.asymm, hne, if_neg Bool.false_ne_true,
      ih fun m hm => h m (List.mem_cons_of_mem entry hm), List.cons_append]

/-- Putting entries in order changes nothing only if they are sorted. -/
theorem orderedEntries_eq_self_iff : orderedEntries entries = entries ↔ IsSorted entries := by
  refine ⟨fun h => h ▸ isSorted_orderedEntries entries, fun h => ?_⟩
  -- each entry comes behind those that are there before it
  have hputs : ∀ done : List (String × α), IsSorted (done ++ entries) →
      entries.foldl (fun done m => insertEntry m.1 m.2 done) done = done ++ entries := by
    clear h
    induction entries with
    | nil => exact fun done _ => (List.append_nil done).symm
    | cons entry rest ih =>
      intro done hdone
      have hlast : ∀ m ∈ done, m.1 < entry.1 := fun m hm =>
        (List.pairwise_append.mp hdone).2.2 m hm entry List.mem_cons_self
      rw [List.foldl_cons, insertEntry_of_lt hlast, ih _ (by simpa using hdone), List.append_assoc,
        List.singleton_append]
  exact hputs [] h

/-! ### Lists of texts -/

/-- The table of texts without anything else. -/
def textTable (texts : List String) : List (String × Unit) := texts.map fun s => (s, ())

/-- A text is put into a list as its entry is put into a table. -/
theorem textTable_insertText (s : String) :
    textTable (insertText s texts) = insertEntry s () (textTable texts) := by
  induction texts with
  | nil => rfl
  | cons t rest ih =>
    show _ = insertEntry s () ((t, ()) :: textTable rest)
    unfold insertText insertEntry
    split
    · rfl
    · split
      · rename_i heq
        obtain rfl := eq_of_beq heq
        rfl
      · rw [← ih]
        rfl

/-- A list put in order is the table of its texts put in order. -/
theorem textTable_orderedTexts (texts : List String) :
    textTable (orderedTexts texts) = orderedEntries (textTable texts) := by
  -- the texts that are in order already vary in the induction
  have hputs : ∀ done : List String,
      textTable (texts.foldl (fun done s => insertText s done) done) =
        (textTable texts).foldl (fun done m => insertEntry m.1 m.2 done) (textTable done) := by
    induction texts with
    | nil => exact fun _ => rfl
    | cons s rest ih =>
      intro done
      rw [List.foldl_cons, ih, textTable_insertText]
      rfl
  exact hputs []

/-- A table of texts is sorted if the texts are. -/
theorem isSorted_textTable : IsSorted (textTable texts) ↔ texts.Pairwise (· < ·) := by
  rw [IsSorted, textTable, List.pairwise_map]

/-- Texts put in order are sorted, and no two are the same. -/
theorem pairwise_orderedTexts (texts : List String) : (orderedTexts texts).Pairwise (· < ·) := by
  rw [← isSorted_textTable, textTable_orderedTexts]
  exact isSorted_orderedEntries _

/-- Putting texts in order changes nothing only if they are. -/
theorem orderedTexts_eq_self_iff : orderedTexts texts = texts ↔ texts.Pairwise (· < ·) := by
  have hinjective : Function.Injective textTable :=
    List.map_injective_iff.mpr fun s t h => congrArg Prod.fst h
  rw [← isSorted_textTable, ← orderedEntries_eq_self_iff, ← textTable_orderedTexts,
    hinjective.eq_iff]

end GuidedTour
