import GuidedTour.Proofs.JoinedPath
import GuidedTour.Proofs.Lowering
import GuidedTour.Proofs.Outline.LinePattern
import GuidedTour.Proofs.Trim
import GuidedTour.Tour.Artifact

namespace GuidedTour

/-!
# File names of tours

* `IsSlug` — a file name without its extension: some characters, of words or hyphens, and each in
  lower case;
* `isSlug_slug`, `slug_eq_self` — the slug of a title is one, and each is its own slug;
* `pathIn_titled` — the main result: a tour named after its title lies directly in the folder for
  tours, whatever the title.
-/

variable {s : List Char} {c : Char}

/-- A text that is fit to name a file. -/
structure IsSlug (s : List Char) : Prop where
  nonempty : s ≠ []
  chars : ∀ c ∈ s, isSlugChar c = true
  lowered : ∀ c ∈ s, Text.IsLowered c

/-- A character of a slug is no blank. -/
theorem isBlank_of_isSlugChar (h : isSlugChar c = true) : Text.isBlank c = false := by
  cases hblank : Text.isBlank c with
  | false => rfl
  | true =>
    obtain ⟨-, hname, -⟩ := not_name_of_isBlank hblank
    rw [Text.isNameChar, Bool.or_eq_false_iff] at hname
    rw [isSlugChar, hname.1, Bool.false_or, beq_iff_eq] at h
    subst h
    cases hblank

/-! ### Hyphens for blanks -/

/-- Hyphens are all that is put in. -/
theorem mem_hyphenate {inRun : Bool} (hc : c ∈ hyphenate inRun s) : c = '-' ∨ c ∈ s := by
  fun_induction hyphenate inRun s with
  | case1 => cases hc
  | case2 d s hblank ih => exact (ih hc).imp_right (List.mem_cons_of_mem d)
  | case3 inRun d s hblank hrun ih =>
    rcases List.mem_cons.mp hc with hc | hc
    · exact .inl hc
    · exact (ih hc).imp_right (List.mem_cons_of_mem d)
  | case4 inRun d s hblank ih =>
    rcases List.mem_cons.mp hc with rfl | hc
    · exact .inr List.mem_cons_self
    · exact (ih hc).imp_right (List.mem_cons_of_mem d)

/-- Without blanks no hyphen is put in. -/
theorem hyphenate_eq_self (hs : ∀ c ∈ s, Text.isBlank c = false) (inRun : Bool) :
    hyphenate inRun s = s := by
  induction s generalizing inRun with
  | nil => rfl
  | cons c s ih =>
    obtain ⟨hc, hs⟩ := List.forall_mem_cons.mp hs
    rw [hyphenate, hc, if_neg Bool.false_ne_true, ih hs]

/-! ### Slugs -/

/-- The slug for an empty title is one. -/
theorem isSlug_emptySlug : IsSlug emptySlug := by
  have hchars : emptySlug.all (fun c => isSlugChar c && decide (Text.IsLowered c)) = true := by
    decide +kernel
  simp only [List.all_eq_true, Bool.and_eq_true, decide_eq_true_eq] at hchars
  exact ⟨by decide, fun c hc => (hchars c hc).1, fun c hc => (hchars c hc).2⟩

/-- Every title has a slug. -/
theorem isSlug_slug (title : List Char) : IsSlug (slug title) := by
  unfold slug
  dsimp only
  split
  · exact isSlug_emptySlug
  · next hkept =>
    refine ⟨fun hnil => hkept (List.isEmpty_iff.mpr hnil), fun c hc => (List.mem_filter.mp hc).2,
      fun c hc => ?_⟩
    rcases mem_hyphenate (List.mem_filter.mp hc).1 with rfl | hlower
    · decide +kernel
    · exact (Text.mem_lower hlower).lowered

/-- Nothing is done to what is a slug already. -/
theorem slug_eq_self (h : IsSlug s) : slug s = s := by
  have hsolid : ∀ c ∈ s, Text.isBlank c = false := fun c hc => isBlank_of_isSlugChar (h.chars c hc)
  have htrim : Text.trim s = s := by
    have hcore : Text.IsTrimmed s :=
      ⟨fun c hc => hsolid c (List.mem_of_mem_head? hc),
        fun c hc => hsolid c (List.mem_of_getLast? hc)⟩
    simpa using Text.trim_between (List.forall_mem_nil _) hcore (List.forall_mem_nil _)
  have hkept : (hyphenate false (Text.lower (Text.trim s))).filter isSlugChar = s := by
    rw [htrim, Text.lower_eq_self h.lowered, hyphenate_eq_self hsolid,
      List.filter_eq_self.mpr h.chars]
  have hfull : s.isEmpty = false := List.isEmpty_eq_false_iff.mpr h.nonempty
  unfold slug
  simp only [hkept, hfull, Bool.false_eq_true, if_false]

/-! ### Files -/

/-- A slug has no other characters. -/
theorem notMem_of_isSlug (h : IsSlug s) (hc : isSlugChar c = false) : c ∉ s := fun hmem => by
  rw [h.chars c hmem] at hc
  cases hc

/-- A file named after a slug is one component, and a name: no slash parts it, and it does not begin
with a dot. -/
theorem components_of_isSlug (h : IsSlug s) (ending : List Char) (hending : '/' ∉ ending) :
    Path.IsRelative (s ++ ending) ∧ Path.leading (s ++ ending) = [] ∧
      Path.components (s ++ ending) = [.name (s ++ ending)] := by
  have hslash : '/' ∉ s ++ ending := by
    rw [List.mem_append, not_or]
    exact ⟨notMem_of_isSlug h (by decide +kernel), hending⟩
  -- Without a slash there is one component.
  have hinner : Path.inner (s ++ ending) = [s ++ ending].filterMap Path.component? := by
    unfold Path.inner Text.splitAll
    rw [Text.splitFrom_of_notMem hslash, List.reverse_nil, List.nil_append]
  obtain ⟨c, rest, rfl⟩ := List.exists_cons_of_ne_nil h.nonempty
  have hdot : c ≠ '.' := fun hc => notMem_of_isSlug h (c := '.') (by decide +kernel) (by simp [hc])
  have hfirst : c ≠ '/' := fun hc => hslash (by simp [hc])
  -- A slug begins with no point, so nothing is relative about it.
  have hleading : Path.leading (c :: rest ++ ending) = [] := by
    simp [Path.leading, hdot, hfirst]
  refine ⟨fun d hd => ?_, hleading, ?_⟩
  · obtain rfl := Option.some.inj hd
    exact hfirst
  · show Path.leading _ ++ Path.inner _ = _
    rw [hleading, hinner]
    simp [Path.component?, hdot]

/-- **A tour named after its title lies directly in the folder for tours.** The slug of a title is
never empty, it is made of word characters and hyphens, and it is its own slug. The path of the tour
is the root, the folder for tours and the slug with the extension of tours, and below that folder
this is one name. -/
theorem pathIn_titled (title description : String) (steps : List Step) (root : String) :
    slug title.toList ≠ [] ∧ (∀ c ∈ slug title.toList, Text.isWord c = true ∨ c = '-') ∧
      slug (slug title.toList) = slug title.toList ∧
      ((Tour.titled title description steps).pathIn root).toList =
        Path.join root.toList (".tours/".toList ++ slug title.toList ++ ".tour".toList) ∧
      Path.components ((Tour.titled title description steps).pathIn root).toList =
        Path.components root.toList ++
          [.name ".tours".toList, .name (slug title.toList ++ ".tour".toList)] := by
  have hslug := isSlug_slug title.toList
  obtain ⟨hrelative, hleading, hname⟩ :=
    components_of_isSlug hslug ".tour".toList (by decide)
  have hfolder : Path.IsRelative ".tours".toList := by
    rintro c hc
    obtain rfl := Option.some.inj hc
    decide
  -- The folder and the file are joined to the root one after the other.
  have hpath : ((Tour.titled title description steps).pathIn root).toList =
      Path.join (Path.join root.toList ".tours".toList) (slug title.toList ++ ".tour".toList) := by
    unfold Tour.pathIn Tour.fileName Tour.titled
    rw [String.toList_ofList, String.toList_append, String.toList_append, String.mapText,
      String.toList_ofList, List.append_assoc]
    rfl
  have hchars : ∀ c ∈ slug title.toList, Text.isWord c = true ∨ c = '-' := by
    intro c hc
    have hslugChar := hslug.chars c hc
    rwa [isSlugChar, Bool.or_eq_true, beq_iff_eq] at hslugChar
  refine ⟨hslug.nonempty, hchars, slug_eq_self hslug, ?_, ?_⟩
  · rw [hpath, Path.join_join hfolder (by decide) (by decide) hrelative]
    rfl
  · rw [hpath, Path.components_join hrelative hleading, Path.components_join hfolder rfl, hname,
      List.append_assoc]
    rfl

end GuidedTour
