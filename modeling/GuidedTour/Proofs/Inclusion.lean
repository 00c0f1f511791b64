import GuidedTour.Proofs.Glob.PlainText
import GuidedTour.Proofs.Lowering
import GuidedTour.Proofs.Trim
import GuidedTour.Workspace.Noise

namespace GuidedTour

open scoped List

/-!
# Which paths the listed extensions include

The pattern for some extensions is made of their lower case, but paths are matched as they are
written.

* `bareExtension` — an extension without blanks and leading dots, as the caller wrote it;
* `tidyExtensions`, `mem_tidyExtensions` — what the pattern is made of;
* `inclusions?_of_isPlainText` — which paths the pattern matches;
* `inclusions_isMatch_iff` — the main result, and `inclusions_lose_capitals`, what it comes to.
-/

open Glob (IsPlainText)

variable {extensions : List String} {e : String} {s : List Char}

/-- An extension without blanks and leading dots. -/
def bareExtension (s : List Char) : List Char := (Text.trim s).dropWhile (· == '.')

/-- A bare extension is a part of what was given. -/
theorem mem_of_mem_bareExtension {c : Char} (hc : c ∈ bareExtension s) : c ∈ s := by
  have htrim : c ∈ Text.trim s := (List.dropWhile_sublist _).subset hc
  obtain ⟨left, right, hs, -, -⟩ := Text.exists_trim s
  rw [hs]
  exact List.mem_append_left right (List.mem_append_right left htrim)

theorem toList_tidyExtension (e : String) :
    (tidyExtension e).toList = Text.lower (bareExtension e.toList) := String.toList_ofList

/-- The lower case of plain text is plain: no capital turns into one of the marks. -/
theorem isPlainText_lower (hs : IsPlainText s) : IsPlainText (Text.lower s) := by
  intro d hd
  rcases (Text.mem_lower hd).origin with hmem | hkind
  · exact hs d hmem
  · intro hmark
    have hmarks : Glob.marks.any (fun m => m.isAlpha || decide (128 ≤ m.toNat)) = false := by
      decide
    exact List.any_eq_false.mp hmarks d hmark (by simpa using hkind)

/-! ### What the pattern is made of -/

/-- Leaving out repeats leaves out nothing. -/
theorem mem_dropRepeats {ws : List String} {w : String} : w ∈ dropRepeats ws ↔ w ∈ ws := by
  fun_induction dropRepeats ws with
  | case1 => rfl
  | case2 => rfl
  | case3 s t rest heq ih =>
    obtain rfl : s = t := by simpa using heq
    rw [ih, List.mem_cons (l := s :: rest), or_iff_right_of_imp]
    rintro rfl
    exact List.mem_cons_self
  | case4 s t rest hne ih => rw [List.mem_cons, List.mem_cons, ih]

/-- The extensions as they stand in the pattern. -/
def tidyExtensions (extensions : List String) : List String :=
  dropRepeats ((extensions.map tidyExtension).filter (!·.isEmpty))

/-- The tidy extensions are those of the extensions that are not empty. -/
theorem mem_tidyExtensions {w : String} : w ∈ tidyExtensions extensions ↔
    ∃ e ∈ extensions, bareExtension e.toList ≠ [] ∧ tidyExtension e = w := by
  have hempty : ∀ e, (!(tidyExtension e).isEmpty) = true ↔ bareExtension e.toList ≠ [] := by
    intro e
    rw [Bool.not_eq_true', ← Bool.not_eq_true, not_iff_not, String.isEmpty_iff,
      ← String.toList_eq_nil_iff, toList_tidyExtension, Text.lower_eq_nil_iff]
  unfold tidyExtensions
  rw [mem_dropRepeats, List.mem_filter, List.mem_map]
  constructor
  · rintro ⟨⟨e, he, rfl⟩, hne⟩
    exact ⟨e, he, (hempty e).mp hne, rfl⟩
  · rintro ⟨e, he, hne, rfl⟩
    exact ⟨⟨e, he, rfl⟩, (hempty e).mpr hne⟩

/-! ### What it matches -/

/-- The pattern of one extension matches the paths that end with it, behind a point. -/
theorem exists_pathPattern?_ending {w : String} (hw : IsPlainText w.toList) :
    ∃ p, pathPattern? ("**/*." ++ w) = some p ∧
      ∀ path : String, p.isMatch path = true ↔ '.' :: w.toList <:+ path.toList := by
  unfold pathPattern?
  rw [String.toList_append, Glob.parse?_ending hw]
  exact ⟨_, rfl, fun path => Glob.isMatch_ending_iff⟩

/-- The pattern of several extensions matches the paths that end with one of them. -/
theorem exists_pathPattern?_endings {ws : List String} (hws : ∀ w ∈ ws, IsPlainText w.toList)
    (hitems : ∀ w ∈ ws, w.toList ≠ []) (hne : ws ≠ []) :
    ∃ p, pathPattern? ("**/*.\x7b" ++ ",".intercalate ws ++ "\x7d") = some p ∧
      ∀ path : String, p.isMatch path = true ↔ ∃ w ∈ ws, '.' :: w.toList <:+ path.toList := by
  have hplain : ∀ w ∈ ws.map String.toList, IsPlainText w := List.forall_mem_map.mpr hws
  have hfull : ∀ w ∈ ws.map String.toList, w ≠ [] := List.forall_mem_map.mpr hitems
  have hmap : ws.map String.toList ≠ [] := fun h => hne (List.map_eq_nil_iff.mp h)
  unfold pathPattern?
  rw [String.toList_append, String.toList_append, String.toList_intercalate, List.append_assoc]
  show ∃ p, Glob.Pattern.parse? .paths ("**/*.\x7b".toList ++
    ([','].intercalate (ws.map String.toList) ++ ['\x7d'])) = some p ∧ _
  rw [Glob.parse?_endings hplain hmap]
  refine ⟨_, rfl, fun path => ?_⟩
  show (⟨_, false⟩ : Glob.Pattern).isMatch path = true ↔ _
  rw [Glob.isMatch_endings_iff hfull hmap]
  constructor
  · rintro ⟨_, hmem, hsuffix⟩
    obtain ⟨w, hw, rfl⟩ := List.mem_map.mp hmem
    exact ⟨w, hw, hsuffix⟩
  · rintro ⟨w, hw, hsuffix⟩
    exact ⟨w.toList, List.mem_map_of_mem hw, hsuffix⟩

/-- Extensions without marks make a pattern, and it matches the paths that end in one of them. -/
theorem inclusions?_of_isPlainText
    (hplain : ∀ w ∈ tidyExtensions extensions, IsPlainText w.toList)
    (hitems : ∀ w ∈ tidyExtensions extensions, w.toList ≠ []) :
    ∃ ps, inclusions? extensions = some ps ∧ ∀ path : String, ps.isMatch path = true ↔
      ∃ w ∈ tidyExtensions extensions, '.' :: w.toList <:+ path.toList := by
  have hany : ∀ (p : Glob.Pattern) (path : String),
      Glob.Patterns.isMatch [p] path = p.isMatch path := fun p path => Bool.or_false _
  unfold inclusions? inclusionGlob?
  rw [← tidyExtensions]
  -- no extension, one, or braces around several
  rcases hcase : tidyExtensions extensions with _ | ⟨one, _ | ⟨two, rest⟩⟩
  · exact ⟨[], rfl, fun path => by simp [Glob.Patterns.isMatch]⟩
  · obtain ⟨p, hp, hmatch⟩ := exists_pathPattern?_ending (hplain one (by simp [hcase]))
    refine ⟨[p], ?_, fun path => ?_⟩
    · show (pathPattern? ("**/*." ++ one)).map (fun p => [p]) = _
      rw [hp]
      rfl
    · rw [hany, hmatch]
      simp
  · rw [hcase] at hplain hitems
    obtain ⟨p, hp, hmatch⟩ :=
      exists_pathPattern?_endings hplain hitems (List.cons_ne_nil one (two :: rest))
    refine ⟨[p], ?_, fun path => ?_⟩
    · show (pathPattern? ("**/*.\x7b" ++ ",".intercalate (one :: two :: rest) ++ "\x7d")).map
        (fun p => [p]) = _
      rw [hp]
      rfl
    · rw [hany, hmatch]

/-- The same, told from the extensions as they are listed. -/
theorem exists_inclusions? (hplain : ∀ e ∈ extensions, IsPlainText e.toList) :
    ∃ ps, inclusions? extensions = some ps ∧ ∀ path : String, ps.isMatch path = true ↔
      ∃ e ∈ extensions, bareExtension e.toList ≠ [] ∧
        '.' :: Text.lower (bareExtension e.toList) <:+ path.toList := by
  -- What is left of a plain extension is plain, so the pattern has no marks but its own.
  have htidy : ∀ w ∈ tidyExtensions extensions, IsPlainText w.toList ∧ w.toList ≠ [] := by
    intro w hw
    obtain ⟨e, he, hne, rfl⟩ := mem_tidyExtensions.mp hw
    rw [toList_tidyExtension]
    refine ⟨isPlainText_lower fun c hc => hplain e he c (mem_of_mem_bareExtension hc), ?_⟩
    exact fun hnil => hne (Text.lower_eq_nil_iff.mp hnil)
  obtain ⟨ps, hps, hmatch⟩ :=
    inclusions?_of_isPlainText (fun w hw => (htidy w hw).1) fun w hw => (htidy w hw).2
  refine ⟨ps, hps, fun path => ?_⟩
  rw [hmatch]
  constructor
  · rintro ⟨w, hw, hsuffix⟩
    obtain ⟨e, he, hne, rfl⟩ := mem_tidyExtensions.mp hw
    rw [toList_tidyExtension] at hsuffix
    exact ⟨e, he, hne, hsuffix⟩
  · rintro ⟨e, he, hne, hsuffix⟩
    refine ⟨tidyExtension e, mem_tidyExtensions.mpr ⟨e, he, hne, rfl⟩, ?_⟩
    rwa [toList_tidyExtension]

/-- **Which paths the listed extensions include.** Extensions without marks always make a pattern.
What it matches ends in the lower case of one of them. So it matches all paths that end in a listed
extension as it was written exactly if that one ends in the lower case of a listed one, its own for
example. And what it matches ends, letter case aside, in a listed extension. -/
theorem inclusions_isMatch_iff (extensions : List String)
    (hplain : ∀ e ∈ extensions, IsPlainText e.toList) :
    ∃ ps, inclusions? extensions = some ps ∧
      (∀ path : String, ps.isMatch path = true ↔
        ∃ e ∈ extensions, bareExtension e.toList ≠ [] ∧
          '.' :: Text.lower (bareExtension e.toList) <:+ path.toList) ∧
      (∀ e ∈ extensions, bareExtension e.toList ≠ [] →
        ((∀ path : String, '.' :: bareExtension e.toList <:+ path.toList →
            ps.isMatch path = true) ↔
          ∃ other ∈ extensions, bareExtension other.toList ≠ [] ∧
            '.' :: Text.lower (bareExtension other.toList) <:+ '.' :: bareExtension e.toList)) ∧
      (∀ path : String, ps.isMatch path = true →
        ∃ e ∈ extensions, bareExtension e.toList ≠ [] ∧ ∃ ending, ending <:+ path.toList ∧
          Text.lower ending = Text.lower ('.' :: bareExtension e.toList)) := by
  obtain ⟨ps, hps, hmatch⟩ := exists_inclusions? hplain
  refine ⟨ps, hps, hmatch, fun e he hne => ⟨fun hall => ?_, ?_⟩, fun path hpath => ?_⟩
  · -- the path that is nothing but the extension
    have hself := hall (String.ofList ('.' :: bareExtension e.toList))
    rw [hmatch, String.toList_ofList] at hself
    exact hself List.suffix_rfl
  · rintro ⟨other, hother, hfull, hsuffix⟩ path hpath
    exact (hmatch path).mpr ⟨other, hother, hfull, hsuffix.trans hpath⟩
  · obtain ⟨e, he, hne, hsuffix⟩ := (hmatch path).mp hpath
    have hdot : Text.IsUncased '.' := by decide +kernel
    refine ⟨e, he, hne, _, hsuffix, ?_⟩
    rw [Text.lower_cons hdot, Text.lower_cons hdot, Text.lower_lower]

/-- An extension in capitals and with a blank is found in lower case. -/
theorem inclusions_isMatch_iff_python :
    (∀ e ∈ [" .PY", "ts"], IsPlainText e.toList) ∧
      (inclusions? [" .PY", "ts"]).map (·.isMatch "tool.py") = some true := by
  have hplain : ∀ e ∈ [" .PY", "ts"], IsPlainText e.toList := by decide
  obtain ⟨ps, hps, hmatch, -, -⟩ := inclusions_isMatch_iff [" .PY", "ts"] hplain
  refine ⟨hplain, ?_⟩
  rw [hps, Option.map_some, (hmatch "tool.py").mpr]
  exact ⟨" .PY", List.mem_cons_self, by decide, by decide +kernel⟩

/-- A path that ends in a listed extension as it was written is not included. -/
theorem inclusions_lose_capitals :
    IsPlainText "R".toList ∧ bareExtension "R".toList = ['R'] ∧
      '.' :: bareExtension "R".toList <:+ "plot.R".toList ∧
      (inclusions? ["R"]).map (·.isMatch "plot.R") = some false := by
  decide +kernel

end GuidedTour
