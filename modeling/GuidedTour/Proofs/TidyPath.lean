import GuidedTour.Proofs.Trim
import GuidedTour.Tour.Review

namespace GuidedTour

/-!
# Tidied paths

`tidyPath` brings a path into the form in which files are listed. Here that form is described on its
own, without the functions that bring it about.

* `IsTidied` — what is left of a path; `isTidied_tidyPath` and `IsTidied.eq_tidyPath` say that
  `tidyPath` finds it and that there is nothing else to find;
* `IsTidy` — paths that nothing is taken off from; `isTidy_iff` says that they are those that
  `tidyPath` leaves as they are.
-/

variable {file tidy s : List Char}

namespace Text

/-! ### The start of a path -/

/-- Some `./` in a row. -/
def dotSlashes (count : Nat) : List Char := (List.replicate count ['.', '/']).flatten

theorem dotSlashes_succ (count : Nat) :
    dotSlashes (count + 1) = '.' :: '/' :: dotSlashes count := by
  simp [dotSlashes, List.replicate_succ]

theorem dotSlashes_length (count : Nat) : (dotSlashes count).length = 2 * count := by
  simp [dotSlashes, Nat.mul_comm]

/-- What is dropped are some `./`. -/
theorem exists_dropDotSlash (s : List Char) : ∃ count, s = dotSlashes count ++ dropDotSlash s := by
  fun_induction dropDotSlash s with
  | case1 s ih =>
    obtain ⟨count, hcount⟩ := ih
    exact ⟨count + 1, by rw [dotSlashes_succ, List.cons_append, List.cons_append, ← hcount]⟩
  | case2 s => exact ⟨0, rfl⟩

/-- No `./` is left at the start. -/
theorem not_prefix_dropDotSlash (s : List Char) : ¬ ['.', '/'] <+: dropDotSlash s := by
  fun_induction dropDotSlash s with
  | case1 s ih => exact ih
  | case2 s hother =>
    rintro ⟨rest, hrest⟩
    exact hother rest hrest.symm

/-- Where none is at the start, none is dropped. -/
theorem dropDotSlash_of_not_prefix (h : ¬ ['.', '/'] <+: s) : dropDotSlash s = s := by
  fun_cases dropDotSlash s with
  | case1 s => exact absurd (List.prefix_append ['.', '/'] s) h
  | case2 => rfl

/-- All `./` at the start are dropped. -/
theorem dropDotSlash_dotSlashes_append (count : Nat) (h : ¬ ['.', '/'] <+: s) :
    dropDotSlash (dotSlashes count ++ s) = s := by
  induction count with
  | zero => exact dropDotSlash_of_not_prefix h
  | succ count ih => rw [dotSlashes_succ, List.cons_append, List.cons_append, dropDotSlash, ih]

/-- Only backslashes are turned. -/
theorem slashed_eq_self_iff : slashed s = s ↔ '\\' ∉ s := by
  induction s with
  | nil => simp [slashed]
  | cons c s ih =>
    rw [slashed, List.map_cons, List.cons.injEq, ← slashed, ih, List.mem_cons, not_or]
    refine and_congr_left fun _ => ?_
    by_cases hc : c = '\\'
    · simp [hc]
    · simp [hc, Ne.symm hc]

end Text

/-! ### Any path -/

/-- What is left of a path when the blanks around it are taken off, backslashes read as slashes, and
then every `./` and after that every slash taken off its start. -/
inductive IsTidied (file tidy : List Char) : Prop
  | intro (left core right : List Char) (dots slashes : Nat)
      (parts : file = left ++ core ++ right)
      (left_blank : ∀ c ∈ left, Text.isBlank c = true)
      (right_blank : ∀ c ∈ right, Text.isBlank c = true)
      (trimmed : Text.IsTrimmed core)
      (start : Text.slashed core = Text.dotSlashes dots ++ (List.replicate slashes '/' ++ tidy))
      (no_dots : ¬ ['.', '/'] <+: List.replicate slashes '/' ++ tidy)
      (no_slash : ∀ c ∈ tidy.head?, c ≠ '/')

theorem toList_tidyPath (file : String) : (tidyPath file).toList =
    (Text.dropDotSlash (Text.slashed (Text.trim file.toList))).dropWhile (· == '/') := by
  simp [tidyPath, String.mapText]

/-- The tidy path is what is left of a path. -/
theorem isTidied_tidyPath (file : String) : IsTidied file.toList (tidyPath file).toList := by
  obtain ⟨left, right, hparts, hleft, hright⟩ := Text.exists_trim file.toList
  obtain ⟨dots, hdots⟩ := Text.exists_dropDotSlash (Text.slashed (Text.trim file.toList))
  have hslash := List.head?_dropWhile_not (· == '/')
    (Text.dropDotSlash (Text.slashed (Text.trim file.toList)))
  have hstart := Text.not_prefix_dropDotSlash (Text.slashed (Text.trim file.toList))
  rw [toList_tidyPath]
  generalize Text.dropDotSlash (Text.slashed (Text.trim file.toList)) = rest at *
  -- The slashes that come off are the first ones in a row.
  have hrow : rest = List.replicate (rest.takeWhile (· == '/')).length '/' ++
      rest.dropWhile (· == '/') := by
    rw [← List.eq_replicate_of_mem (l := rest.takeWhile (· == '/')) fun c hc => by
      simpa using List.mem_takeWhile_imp hc, List.takeWhile_append_dropWhile]
  refine .intro left _ right dots _ hparts hleft hright (Text.isTrimmed_trim _) (hrow ▸ hdots)
    (hrow ▸ hstart) fun c hc => ?_
  rw [Option.mem_def.mp hc] at hslash
  simpa using hslash

/-- A path can be tidied in one way only. -/
theorem IsTidied.eq_tidyPath {file : String} (h : IsTidied file.toList tidy) :
    tidy = (tidyPath file).toList := by
  obtain ⟨left, core, right, dots, slashes, hparts, hleft, hright, hcore, hstart, hdots, hslash⟩ :=
    h
  rw [toList_tidyPath, hparts, Text.trim_between hleft hcore hright, hstart,
    Text.dropDotSlash_dotSlashes_append dots hdots,
    Text.dropWhile_append_eq (by simp) (by simpa using hslash)]

/-! ### Paths that are tidy -/

/-- A path that is as files are listed: not empty, without blanks around it, backslashes, and `./`
or a slash at the start. -/
structure IsTidy (file : List Char) : Prop where
  nonempty : file ≠ []
  trimmed : Text.IsTrimmed file
  slashes : '\\' ∉ file
  no_dots : ¬ ['.', '/'] <+: file
  no_slash : ∀ c ∈ file.head?, c ≠ '/'

/-- A tidy path is tidied as itself. -/
theorem IsTidy.isTidied (h : IsTidy file) : IsTidied file file :=
  .intro [] file [] 0 0 (by simp) (by simp) (by simp) h.trimmed
    (by simpa [Text.dotSlashes] using Text.slashed_eq_self_iff.mpr h.slashes)
    (by simpa using h.no_dots) h.no_slash

/-- What is left of a path is as long as the path only if nothing was taken off. -/
theorem IsTidied.isTidy (h : IsTidied file file) (hne : file ≠ []) : IsTidy file := by
  obtain ⟨left, core, right, dots, slashes, hparts, -, -, hcore, hstart, hdots, hslash⟩ := h
  have hlength : file.length = left.length + core.length + right.length := by
    rw [hparts, List.length_append, List.length_append]
  -- The path is what is left of it, so by its length nothing was taken off.
  have hkept : core.length = 2 * dots + (slashes + file.length) := by
    have := congrArg List.length hstart
    simpa [Text.slashed, Text.dotSlashes_length] using this
  have hleft : left = [] := List.eq_nil_of_length_eq_zero (by omega)
  have hright : right = [] := List.eq_nil_of_length_eq_zero (by omega)
  obtain ⟨rfl, rfl⟩ : dots = 0 ∧ slashes = 0 := by omega
  obtain rfl : file = core := by simpa [hleft, hright] using hparts
  exact ⟨hne, hcore, Text.slashed_eq_self_iff.mp (by simpa [Text.dotSlashes] using hstart),
    by simpa using hdots, hslash⟩

/-- A path is tidy if it is not empty and nothing is taken off from it. -/
theorem isTidy_iff {file : String} : IsTidy file.toList ↔ file ≠ "" ∧ tidyPath file = file := by
  constructor
  · intro h
    refine ⟨fun hempty => h.nonempty (by simp [hempty]), String.toList_injective ?_⟩
    exact h.isTidied.eq_tidyPath.symm
  · rintro ⟨hne, htidy⟩
    have hself := isTidied_tidyPath file
    rw [htidy] at hself
    exact hself.isTidy (by simpa using hne)

end GuidedTour
