import GuidedTour.Proofs.DraftJson
import GuidedTour.Proofs.Prose

namespace GuidedTour

/-!
# The drafts of an answer

An answer brings the drafts of its array item by item.

* `Answer.IsItem` — a text that stands for a value wherever it is an item of an array;
* `Answer.drafts_of_items` — the drafts of an array are those of its items;
* `Answer.drafts_items` — no item has a say in what comes of another;
* `Answer.drafts_written` — drafts that are written down and put into prose come back as they were.
-/

/-! ### Values of items -/

/-- Items have values if each of them has one. -/
theorem Document.valuesWithin_eq_some_iff {depth : Nat} {items : List Document}
    {values : List Json} : valuesWithin depth items = some values ↔
      List.Forall₂ (fun d v => d.valueWithin depth = some v) items values := by
  induction items generalizing values with
  | nil => simp [valuesWithin, eq_comm]
  | cons d items ih =>
    simp only [valuesWithin, Option.pure_def, Option.bind_eq_bind, Option.bind_eq_some_iff, ih]
    constructor
    · rintro ⟨v, hv, vs, hvs, heq⟩
      obtain rfl := Option.some.inj heq
      exact .cons hv hvs
    · rintro (_ | ⟨hv, hvs⟩)
      exact ⟨_, hv, _, hvs, rfl⟩

/-- A text that begins and ends with a bracket has no gap around its value. -/
theorem SpellsText.spells {s : List Char} {d : Document} (h : SpellsText ('[' :: s ++ [']']) d) :
    Spells ('[' :: s ++ [']']) d := by
  generalize hw : '[' :: s ++ [']'] = w at h
  obtain ⟨hbefore, hvalue, hafter⟩ := h
  rename_i before v after
  -- A gap before or behind would have to be a bracket.
  cases before with
  | cons c t =>
    obtain ⟨rfl, -⟩ := List.cons.inj hw
    exact absurd (hbefore _ List.mem_cons_self) (by decide)
  | nil =>
    rcases List.eq_nil_or_concat' after with rfl | ⟨t, c, rfl⟩
    · simpa using hvalue
    · rw [List.nil_append, ← List.append_assoc] at hw
      obtain ⟨-, hc⟩ := List.append_inj' hw rfl
      obtain ⟨rfl, -⟩ := List.cons.inj hc
      exact absurd (hafter ']' (by simp)) (by decide)

/-- Between the brackets of an array that is not empty are its items. -/
theorem Spells.spellsItems {s : List Char} {items : List Document}
    (h : Spells ('[' :: s ++ [']']) (.array items)) (hne : items ≠ []) : SpellsItems s items := by
  generalize hw : '[' :: s ++ [']'] = w at h
  cases h with
  | noItems => exact absurd rfl hne
  | array hitems =>
    obtain ⟨-, heq⟩ := List.cons.inj hw
    rwa [List.append_cancel_right heq]

namespace Answer

variable {before after text : List Char} {texts : List (List Char)} {value : Json}

/-- A text that stands for the value as an item of the outermost array. -/
def IsItem (text : List Char) (value : Json) : Prop :=
  ∃ d, SpellsText text d ∧ d.valueWithin (Document.maxDepth - 1) = some value

/-- What the reader accepts as the only item of an array is an item. -/
theorem isItem_of_parse (h : Json.parse ('[' :: text ++ [']']) = some (.array [value])) :
    IsItem text value := by
  obtain ⟨d, hparse, hvalue⟩ := Option.bind_eq_some_iff.mp h
  have hspells := (Document.parse_eq_some_iff.mp hparse).spells
  obtain ⟨items, rfl⟩ := hspells.exists_items
  rw [Document.value?, Document.maxDepth, Document.valueWithin] at hvalue
  obtain ⟨values, hvalues, heq⟩ := Option.map_eq_some_iff.mp hvalue
  obtain rfl := Json.array.inj heq
  obtain _ | ⟨hitem, hnil⟩ := Document.valuesWithin_eq_some_iff.mp hvalues
  cases hnil
  -- One value comes of one item.
  cases hspells.spellsItems (List.cons_ne_nil _ _) with
  | last htext => exact ⟨_, htext, hitem⟩
  | more _ hrest => cases hrest

/-- As many documents as there are items. -/
theorem exists_documents {values : List Json} (h : List.Forall₂ IsItem texts values) :
    ∃ items, List.Forall₂ SpellsText texts items ∧
      Document.valuesWithin (Document.maxDepth - 1) items = some values := by
  simp only [Document.valuesWithin_eq_some_iff]
  induction h with
  | nil => exact ⟨[], .nil, .nil⟩
  | cons hitem _ ih =>
    obtain ⟨d, htext, hvalue⟩ := hitem
    obtain ⟨items, htexts, hvalues⟩ := ih
    exact ⟨d :: items, .cons htext htexts, .cons hvalue hvalues⟩

/-- The drafts of items in an array are those of their values. -/
theorem drafts_of_items {values : List Json} (hbefore : '[' ∉ before)
    (hitems : List.Forall₂ IsItem texts values) :
    drafts (before ++ ('[' :: Json.commas texts ++ [']']) ++ after) =
      values.filterMap draft? := by
  obtain ⟨items, htexts, hvalues⟩ := exists_documents hitems
  -- The array is found whole, it is read as these items, and they stand for these values.
  have harray := Spells.brackets htexts
  have hparse : Document.parse ('[' :: Json.commas texts ++ [']']) = some (.array items) :=
    Document.parse_eq_some_iff.mpr (.of_spells harray)
  have hvalue : (Document.array items).value? = some (.array values) := by
    rw [Document.value?, Document.maxDepth, Document.valueWithin]
    exact congrArg (Option.map Json.array) hvalues
  rw [drafts, List.append_assoc, array?_prose hbefore, array?_append harray]
  simp only [Json.parse, hparse, Option.bind_some, hvalue, Json.items?]

/-- An item alone in an array. -/
theorem drafts_of_item (h : IsItem text value) :
    drafts ('[' :: text ++ [']']) = (draft? value).toList := by
  have hone : drafts ([] ++ ('[' :: Json.commas [text] ++ [']']) ++ []) =
      [value].filterMap draft? := drafts_of_items (by simp) (.cons h .nil)
  rw [List.nil_append, List.append_nil, List.filterMap_cons] at hone
  refine hone.trans ?_
  cases draft? value <;> rfl

/-- An item alone gives one draft at most. -/
theorem drafts_item_length_le (h : IsItem text value) :
    (drafts ('[' :: text ++ [']'])).length ≤ 1 := by
  rw [drafts_of_item h]
  cases draft? value <;> simp

/-- The drafts of single items together are those of their values. -/
theorem flatMap_drafts {values : List Json} (h : List.Forall₂ IsItem texts values) :
    texts.flatMap (fun text => drafts ('[' :: text ++ [']'])) = values.filterMap draft? := by
  induction h with
  | nil => rfl
  | cons hitem _ ih =>
    rw [List.flatMap_cons, ih, drafts_of_item hitem, List.filterMap_cons]
    cases draft? _ <;> rfl

/-- Items have values that can be put in a list. -/
theorem exists_values (h : ∀ text ∈ texts, ∃ value, IsItem text value) :
    ∃ values, List.Forall₂ IsItem texts values := by
  induction texts with
  | nil => exact ⟨[], .nil⟩
  | cons text texts ih =>
    obtain ⟨value, hvalue⟩ := h text List.mem_cons_self
    obtain ⟨values, hvalues⟩ := ih fun t ht => h t (List.mem_cons_of_mem text ht)
    exact ⟨value :: values, .cons hvalue hvalues⟩

/-- **Each item speaks for itself.** Texts that the reader accepts one by one as the only item of an
array are put into one array, behind prose without brackets and before anything. The drafts of the
whole are those that each item brings alone, in their order, and each brings at most one. -/
theorem drafts_items (hbefore : '[' ∉ before)
    (htexts : ∀ text ∈ texts, ∃ value, Json.parse ('[' :: text ++ [']']) = some (.array [value])) :
    drafts (before ++ ('[' :: Json.commas texts ++ [']']) ++ after) =
        texts.flatMap (fun text => drafts ('[' :: text ++ [']'])) ∧
      ∀ text ∈ texts, (drafts ('[' :: text ++ [']'])).length ≤ 1 := by
  have hitem : ∀ text ∈ texts, ∃ value, IsItem text value := fun text htext => by
    obtain ⟨value, hvalue⟩ := htexts text htext
    exact ⟨value, isItem_of_parse hvalue⟩
  obtain ⟨values, hvalues⟩ := exists_values hitem
  refine ⟨?_, fun text htext => ?_⟩
  · rw [drafts_of_items hbefore hvalues, flatMap_drafts hvalues]
  · obtain ⟨value, hvalue⟩ := hitem text htext
    exact drafts_item_length_le hvalue

/-- Stray items, items that are no drafts and brackets in strings beside two good drafts. -/
theorem drafts_items_amongStrays :
    let texts := ["\x7b\"title\": \"a ] \\\" [\"\x7d", "\"stray\"", " \x7b\"title\": 5\x7d",
      "\x7b\"file\": \"x\", \"path\": \"y\"\x7d", "[[\x7b\x7d]]",
      "\x7b\"title\": \"b\", \"line\": \"3\"\x7d "].map String.toList
    (∀ text ∈ texts, ∃ value, Json.parse ('[' :: text ++ [']']) = some (.array [value])) ∧
      drafts ("So: ".toList ++ ('[' :: Json.commas texts ++ [']']) ++ "]".toList) =
        texts.flatMap (fun text => drafts ('[' :: text ++ [']'])) ∧
      texts.flatMap (fun text => (drafts ('[' :: text ++ [']'])).map Draft.title) =
        ["a ] \" [", "b"] := by
  intro texts
  have hparse : ∀ text ∈ texts,
      ((Json.parse ('[' :: text ++ [']'])).bind Json.items?).map List.length = some 1 := by
    decide +kernel
  -- The texts are read once, and only the number of items is compared.
  have htexts : ∀ text ∈ texts,
      ∃ value, Json.parse ('[' :: text ++ [']']) = some (.array [value]) := by
    intro text htext
    obtain ⟨items, hitems, hlength⟩ := Option.map_eq_some_iff.mp (hparse text htext)
    obtain ⟨value, rfl⟩ := List.length_eq_one_iff.mp hlength
    obtain ⟨whole, hwhole, harray⟩ := Option.bind_eq_some_iff.mp hitems
    cases whole with
    | array items =>
      obtain rfl := Option.some.inj harray
      exact ⟨value, hwhole⟩
    | _ => cases harray
  exact ⟨htexts, (drafts_items (by decide) htexts).1, by decide +kernel⟩

/-! ### Drafts that are written down -/

/-- A written draft is an item. -/
theorem Draft.isItem_compact {d : Draft} (h : d.IsSized) : IsItem d.json.compact d.json :=
  ⟨d.json.document, .of_spells (Json.spells_compact (Draft.numbersFit_json h)),
    Draft.valueWithin_json 123 d⟩

/-- Written drafts are items, one by one. -/
theorem isItem_compactItems {ds : List Draft} (h : ∀ d ∈ ds, d.IsSized) :
    List.Forall₂ IsItem (Json.compactItems (ds.map Draft.json)) (ds.map Draft.json) := by
  induction ds with
  | nil => exact .nil
  | cons d ds ih =>
    exact .cons (Draft.isItem_compact (h d List.mem_cons_self))
      (ih fun e he => h e (List.mem_cons_of_mem d he))

/-- Drafts come back from their values. -/
theorem filterMap_draft?_json {ds : List Draft} (h : ∀ d ∈ ds, d.IsSized) :
    (ds.map Draft.json).filterMap draft? = ds := by
  have hdraft : ∀ d ∈ ds, (draft? ∘ Draft.json) d = some d := fun d hd => draft?_json (h d hd)
  rw [List.filterMap_map, List.filterMap_congr hdraft, List.filterMap_some]

/-- **Drafts come back as they were written**: any list of drafts, written as one array behind prose
without brackets and before anything, is what the answer brings. -/
theorem drafts_written {ds : List Draft} (hbefore : '[' ∉ before) (hds : ∀ d ∈ ds, d.IsSized) :
    drafts (before ++ (Json.array (ds.map Draft.json)).compact ++ after) = ds := by
  rw [Json.compact, drafts_of_items hbefore (isItem_compactItems hds), filterMap_draft?_json hds]

/-- Numbers at the ends of their ranges, and brackets, quotes and control characters in strings. -/
theorem drafts_written_extremes :
    let ds : List Draft :=
      [{ title := "] \" \\ \x01\n", file := "[a]", line := some int64Min
         selection := some ⟨⟨natMax64, 0⟩, ⟨0, natMax64⟩⟩ }, { line := some int64Max }, {}]
    '[' ∉ "Steps: ".toList ∧ (∀ d ∈ ds, d.IsSized) ∧
      drafts ("Steps: ".toList ++ (Json.array (ds.map Draft.json)).compact ++ " [".toList) = ds := by
  intro ds
  have hsized : ∀ d ∈ ds, d.IsSized := by decide
  exact ⟨by decide, hsized, drafts_written (by decide) hsized⟩

end Answer

end GuidedTour
