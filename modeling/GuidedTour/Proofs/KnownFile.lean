import GuidedTour.Proofs.TidyPath

namespace GuidedTour

/-!
# The file that a path points at

`knownFile?` looks for the tidied path among the files of a project, and where it is not among them
for a file of the same name.

* `IsLastName`, `ShareName` — the name at the end of a path, and two paths that share it;
* `Project.Lists`, `Project.IsFirstNamed` — the files of a project, and the first one of a name;
* `knownFile?_listed`, `knownFile?_eq_some_iff`, `knownFile?_eq_none_iff` — what a path points at in
  each case. A listed path goes before a shared name, and of several files of one name the first
  counts.
-/

variable {p : Project} {file known path : String}

/-! ### Names at the end of paths -/

/-- The name at the end of a path: all of it, or all behind its last slash. -/
def IsLastName (path name : List Char) : Prop :=
  '/' ∉ name ∧ (path = name ∨ ∃ folder, path = folder ++ '/' :: name)

/-- The base name is the last name of a path. -/
theorem isLastName_baseName (path : List Char) : IsLastName path (Path.baseName path) := by
  have hparts : path.rdropWhile (· != '/') ++ Path.baseName path = path :=
    List.rdropWhile_append_rtakeWhile
  refine ⟨fun hmem => by simpa using List.mem_rtakeWhile_imp hmem, ?_⟩
  by_cases hnil : path.rdropWhile (· != '/') = []
  · exact .inl (by rw [hnil, List.nil_append] at hparts; exact hparts.symm)
  · -- What stands before the name ends in a slash.
    have hslash : (path.rdropWhile (· != '/')).getLast hnil = '/' := by
      simpa using List.rdropWhile_last_not (· != '/') path hnil
    have hsplit := List.dropLast_append_getLast hnil
    rw [hslash] at hsplit
    exact .inr ⟨_, by rw [List.append_cons, hsplit, hparts]⟩

/-- A path has one last name, which is its base name. -/
theorem isLastName_iff {path name : List Char} :
    IsLastName path name ↔ name = Path.baseName path := by
  refine ⟨?_, fun h => h ▸ isLastName_baseName path⟩
  rintro ⟨hname, hpath⟩
  have hall : ∀ c ∈ name.reverse, (c != '/') = true := by
    intro c hc
    have hne : c ≠ '/' := by rintro rfl; exact hname (List.mem_reverse.mp hc)
    simpa using hne
  rcases hpath with rfl | ⟨folder, rfl⟩
  · rw [Path.baseName, List.takeWhile_eq_self_iff.mpr hall, List.reverse_reverse]
  · rw [Path.baseName, List.reverse_append, List.reverse_cons, List.append_assoc,
      List.takeWhile_append_of_pos hall]
    simp

/-- Two paths end in the same name, the case of ASCII letters aside. -/
def ShareName (path other : String) : Prop :=
  ∃ name otherName, IsLastName path.toList name ∧ IsLastName other.toList otherName ∧
    name.map Char.toLower = otherName.map Char.toLower

/-- Two paths are taken for one name if their last names agree but for their letter case. -/
theorem sameName_iff {other : String} : sameName path other = true ↔ ShareName path other := by
  simp [sameName, Text.sameIgnoringCase, ShareName, isLastName_iff]

/-! ### Files of a project -/

/-- A path of a file of the project. -/
def Project.Lists (p : Project) (path : String) : Prop := ∃ o ∈ p.files, o.file = path

/-- The first file of the project that shares its name with a path. -/
def Project.IsFirstNamed (p : Project) (path known : String) : Prop :=
  ∃ before o after, p.files = before ++ o :: after ∧ o.file = known ∧ ShareName known path ∧
    ∀ earlier ∈ before, ¬ ShareName earlier.file path

theorem Project.containsFile_iff : p.containsFile path = true ↔ p.Lists path := by
  simp [containsFile, Lists]

/-- The search comes to the first file of that name. -/
theorem find?_sameName_eq_some_iff :
    (p.files.map Outline.file).find? (fun known => sameName known path) = some known ↔
      p.IsFirstNamed path known := by
  rw [List.find?_map, Option.map_eq_some_iff]
  constructor
  · rintro ⟨o, ho, rfl⟩
    obtain ⟨hname, before, after, hfiles, hbefore⟩ := List.find?_eq_some_iff_append.mp ho
    refine ⟨before, o, after, hfiles, rfl, sameName_iff.mp hname, fun earlier hmem => ?_⟩
    simpa [← sameName_iff] using hbefore earlier hmem
  · rintro ⟨before, o, after, hfiles, rfl, hname, hbefore⟩
    refine ⟨o, List.find?_eq_some_iff_append.mpr ⟨sameName_iff.mpr hname, before, after, hfiles,
      fun earlier hmem => ?_⟩, rfl⟩
    simpa [← sameName_iff] using hbefore earlier hmem

/-- The search finds nothing only if no file has that name. -/
theorem find?_sameName_eq_none_iff :
    (p.files.map Outline.file).find? (fun known => sameName known path) = none ↔
      ∀ o ∈ p.files, ¬ ShareName o.file path := by
  simp [List.find?_eq_none, ← sameName_iff]

/-! ### The file that is found -/

/-- An empty path is no file. -/
theorem knownFile?_of_empty (h : tidyPath file = "") : knownFile? p file = none := by
  simp [knownFile?, h]

/-- A listed path is taken as it is. -/
theorem knownFile?_listed (hne : tidyPath file ≠ "") (h : p.Lists (tidyPath file)) :
    knownFile? p file = some (tidyPath file) := by
  simp [knownFile?, hne, Project.containsFile_iff.mpr h]

/-- For a path that is not listed, the first file of its name is taken. -/
theorem knownFile?_unlisted (hne : tidyPath file ≠ "") (h : ¬ p.Lists (tidyPath file)) :
    knownFile? p file =
      (p.files.map Outline.file).find? fun known => sameName known (tidyPath file) := by
  simp [knownFile?, hne, mt Project.containsFile_iff.mp h]

/-- A path points at the file listed under its tidied path, and where there is none at the first
file that shares its name. -/
theorem knownFile?_eq_some_iff : knownFile? p file = some known ↔ tidyPath file ≠ "" ∧
    (p.Lists (tidyPath file) ∧ known = tidyPath file ∨
      ¬ p.Lists (tidyPath file) ∧ p.IsFirstNamed (tidyPath file) known) := by
  by_cases hempty : tidyPath file = ""
  · simp [knownFile?_of_empty hempty, hempty]
  by_cases hlisted : p.Lists (tidyPath file)
  · simp [knownFile?_listed hempty hlisted, hempty, hlisted, eq_comm]
  · rw [knownFile?_unlisted hempty hlisted, find?_sameName_eq_some_iff]
    simp [hempty, hlisted]

/-- A path points at no file exactly if nothing is left of it, or it is neither listed nor shares
its name with a file. -/
theorem knownFile?_eq_none_iff : knownFile? p file = none ↔ tidyPath file = "" ∨
    ¬ p.Lists (tidyPath file) ∧ ∀ o ∈ p.files, ¬ ShareName o.file (tidyPath file) := by
  by_cases hempty : tidyPath file = ""
  · simp [knownFile?_of_empty hempty, hempty]
  by_cases hlisted : p.Lists (tidyPath file)
  · simp [knownFile?_listed hempty hlisted, hempty, hlisted]
  · rw [knownFile?_unlisted hempty hlisted, find?_sameName_eq_none_iff]
    simp [hempty, hlisted]

end GuidedTour
