import GuidedTour.Proofs.Glob.Accepting
import GuidedTour.Proofs.Lowering
import GuidedTour.Proofs.TidyPath
import GuidedTour.Proofs.Welcome
import GuidedTour.Workspace.Noise
import Mathlib.Data.List.Forall2
import Mathlib.Logic.Relation

namespace GuidedTour

open scoped List

/-!
# Noise, however it is spelled

The check for noise and the patterns that files are listed with are two rules. The check is the
stricter one, it does not depend on how a path is spelled, and what is noise is noise in any folder.

* `foldPath` — a path as the check sees it; `isNoise_iff` says what it asks of that;
* `respelt_foldPath` — nothing that a noise pattern looks at is lost on the way there;
* `Respells` — letter case, the direction of slashes, and a `./` in front;
* `isNoise_dominates` — the main result.
-/

open Glob (Respelt encode slash)

variable {s t : List Char} {c : Char} {path other : String}

/-! ### A path as the check sees it -/

/-- A path in lower case and with slashes only. -/
def foldPath (s : List Char) : List Char := Text.lower (Text.slashed s)

/-- A `./` in front stays in front. -/
theorem foldPath_dotSlash (s : List Char) :
    foldPath ('.' :: '/' :: s) = '.' :: '/' :: foldPath s := by
  have huncased : Text.IsUncased '.' ∧ Text.IsUncased '/' := by decide +kernel
  show Text.lower ('.' :: '/' :: Text.slashed s) = _
  rw [Text.lower_cons huncased.1, Text.lower_cons huncased.2]
  rfl

/-- A folder in front stays in front. -/
theorem foldPath_below (folder s : List Char) :
    foldPath (folder ++ '/' :: s) = foldPath folder ++ '/' :: foldPath s := by
  have hbreak : Text.IsBreak '/' := by decide +kernel
  unfold foldPath Text.slashed
  rw [List.map_append, List.map_cons]
  show Text.lower (_ ++ '/' :: _) = _
  rw [Text.lower_append_break hbreak]
  rfl

/-- The bytes that noise patterns may be made of: those of ASCII, without capitals and backslashes.
-/
def isPlainByte (b : UInt8) : Bool := b < 128 && !(65 ≤ b && b ≤ 90) && b != 92

/-- A character of such bytes is left as it is. -/
theorem plain_cases (c : Char) : (∀ b ∈ String.utf8EncodeChar c, isPlainByte b = false) ∨
    c.toNat < 128 ∧ c ≠ '\\' ∧ c.toLower = c := by
  have hnone : ∀ {u : List UInt8}, u.any isPlainByte = false → ∀ b ∈ u, isPlainByte b = false :=
    fun hu b hb => by simpa using List.any_eq_false.mp hu b hb
  -- Beyond ASCII no byte is plain. In ASCII a backslash or a capital letter is a byte that is not.
  by_cases hascii : c.toNat < 128
  · by_cases hslash : c = '\\'
    · left
      rw [hslash]
      exact hnone (by decide +kernel)
    · by_cases hcapital : c.toLower = c
      · exact .inr ⟨hascii, hslash, hcapital⟩
      · have hcapitals : ∀ n < 26,
            (String.utf8EncodeChar (Text.capital n)).any isPlainByte = false := by decide +kernel
        obtain ⟨n, hn, rfl⟩ := Text.exists_capital hcapital
        exact .inl (hnone (hcapitals n hn))
  · left
    intro b hb
    have hlarge := Glob.le_of_mem_encodeChar (Nat.not_lt.mp hascii) hb
    have hb : ¬ b < 128 := fun hlt => absurd (UInt8.lt_iff_toNat_lt.mp hlt) (Nat.not_lt.mpr hlarge)
    unfold isPlainByte
    rw [decide_eq_false hb]
    rfl

/-- In lower case and with slashes, only bytes that need not stay are others. -/
theorem respelt_lowerAfter (before s : List Char) :
    Respelt isPlainByte (encode s) (encode (Text.lowerAfter before (Text.slashed s))) := by
  induction s generalizing before with
  | nil => exact .nil
  | cons c s ih =>
    unfold Text.slashed
    rw [List.map_cons, ← Text.slashed, Text.lowerAfter, Glob.encode_append, Glob.encode_cons]
    -- A character without plain bytes may become anything, and any other stays.
    rcases plain_cases c with hchange | ⟨hascii, hslash, hcapital⟩
    · exact .changeAll hchange String.utf8EncodeChar_ne_nil _ (ih _)
    · have hchar : (if c == '\\' then '/' else c) = c := if_neg (by simpa using hslash)
      have hlowered : Text.IsLowered c := by
        refine ⟨by omega, ?_⟩
        unfold Text.lowerChar
        rw [if_pos hascii, hcapital]
      rw [hchar, hlowered.lowerBetween_eq, Glob.encode_cons, Glob.encode_nil, List.append_nil,
        Glob.encodeChar_ascii hascii]
      exact .keep _ (ih _)

/-- A path as the check sees it has others in place of such bytes only. -/
theorem respelt_foldPath (s : List Char) :
    Respelt isPlainByte (encode s) (encode (foldPath s)) := by
  unfold foldPath
  rw [Text.lower_eq]
  exact respelt_lowerAfter [] s

/-! ### What the check asks -/

/-- All patterns of noise may begin at any folder. -/
theorem floats_of_mem_noisePatterns : ∀ p ∈ noisePatterns, p.floats isPlainByte = true := by
  decide +kernel

/-- The `./` at the start of a path mean nothing to a pattern that may begin at any folder. -/
theorem takes_dropDotSlash_iff {p : Glob.Pattern} {stays : UInt8 → Bool}
    (hp : p.floats stays = true) (w : List Char) :
    p.Takes (encode (Text.dropDotSlash w)) ↔ p.Takes (encode w) := by
  obtain ⟨count, hw⟩ := Text.exists_dropDotSlash w
  generalize Text.dropDotSlash w = rest at hw ⊢
  subst hw
  induction count with
  | zero => rfl
  | succ count ih =>
    rw [ih, Text.dotSlashes_succ, List.cons_append, List.cons_append,
      Glob.Pattern.takes_dotSlash_iff hp]

/-- What makes a path noise: a pattern, or a fragment of the path behind a slash. -/
theorem isNoise_iff (path : String) : isNoise path = true ↔
    (∃ p ∈ noisePatterns, p.Takes (encode (foldPath path.toList))) ∨
      ∃ fragment ∈ noiseFragments, fragment.toList <:+: '/' :: foldPath path.toList := by
  unfold isNoise
  rw [Bool.or_eq_true]
  refine or_congr ?_ ?_
  · unfold Glob.Patterns.isMatch
    rw [List.any_eq_true]
    refine exists_congr fun p => and_congr_right fun hp => ?_
    have hfloats := floats_of_mem_noisePatterns p hp
    rw [Glob.Pattern.isMatch_iff_takes hfloats, String.toList_ofList]
    exact takes_dropDotSlash_iff hfloats _
  · rw [List.any_eq_true]
    exact exists_congr fun fragment => and_congr_right fun _ => Text.contains_iff_infix

/-! ### Paths that are spelled alike -/

/-- A path that differs from another one in the case of ASCII letters, in the direction of slashes,
or by a `./` in front. -/
inductive Respells : String → String → Prop
  | letterCase {path other : String}
      (h : other.toList.map Char.toLower = path.toList.map Char.toLower) : Respells path other
  | slashes {path other : String}
      (h : List.Forall₂ (fun c d => d = c ∨ c ∈ ['/', '\\'] ∧ d ∈ ['/', '\\'])
        path.toList other.toList) : Respells path other
  | dotSlash (path : String) : Respells path ("./" ++ path)

/-- The check does not see the case of ASCII letters. -/
theorem foldPath_congr_letterCase (h : t.map Char.toLower = s.map Char.toLower) :
    foldPath t = foldPath s := by
  -- a character and its lower case are seen as the same
  have hsame : ∀ c : Char, (if c.toLower == '\\' then '/' else c.toLower).toLower =
      (if c == '\\' then '/' else c).toLower := by
    apply Text.eq_toLower_of_capitals (f := fun c : Char => (if c == '\\' then '/' else c).toLower)
    decide +kernel
  have hslashed : ∀ u : List Char, (Text.slashed u).map Char.toLower =
      (Text.slashed (u.map Char.toLower)).map Char.toLower := by
    intro u
    unfold Text.slashed
    rw [List.map_map, List.map_map, List.map_map]
    exact List.map_congr_left fun c _ => (hsame c).symm
  unfold foldPath
  rw [← Text.lower_map_toLower, hslashed, h, ← hslashed, Text.lower_map_toLower]

/-- The check does not see which way a slash leans. -/
theorem foldPath_congr_slashes
    (h : List.Forall₂ (fun c d => d = c ∨ c ∈ ['/', '\\'] ∧ d ∈ ['/', '\\']) s t) :
    foldPath t = foldPath s := by
  have hslashed : Text.slashed t = Text.slashed s := by
    unfold Text.slashed
    induction h with
    | nil => rfl
    | cons hcd _ ih =>
      rw [List.map_cons, List.map_cons, ih]
      -- The characters are the same, or both are one of the two slashes.
      rcases hcd with rfl | ⟨hc, hd⟩
      · rfl
      · have hboth : ∀ {e : Char}, e ∈ ['/', '\\'] → (if e == '\\' then '/' else e) = '/' := by
          intro e he
          obtain rfl | rfl : e = '/' ∨ e = '\\' := by simpa using he
          · rfl
          · rfl
        rw [hboth hc, hboth hd]
  unfold foldPath
  rw [hslashed]

/-- No fragment of noise begins within a `./`. -/
theorem infix_dotSlash_iff {fragment : String} (hfragment : fragment ∈ noiseFragments)
    (s : List Char) :
    fragment.toList <:+: '/' :: '.' :: '/' :: s ↔ fragment.toList <:+: '/' :: s := by
  -- No fragment begins like a path with a `./` in front.
  have hstarts : ∀ f ∈ noiseFragments, 3 ≤ f.toList.length ∧ f.toList.take 3 ≠ ['/', '.', '/'] ∧
      f.toList.take 2 ≠ ['.', '/'] := by decide +kernel
  obtain ⟨hlength, hthree, htwo⟩ := hstarts fragment hfragment
  have htake : ∀ (n : Nat) (u : List Char), n ≤ fragment.toList.length →
      fragment.toList <+: u → fragment.toList.take n = u.take n := by
    intro n u hn hu
    rw [List.prefix_iff_eq_take.mp hu, List.take_take, Nat.min_eq_left hn]
  constructor
  · intro h
    rcases List.infix_cons_iff.mp h with h | h
    · exact absurd (htake 3 _ hlength h) hthree
    · rcases List.infix_cons_iff.mp h with h | h
      · exact absurd (htake 2 _ (by omega) h) htwo
      · exact h
  · exact fun h => h.trans ⟨['/', '.'], [], by simp⟩

/-- Noise stays noise in another spelling. -/
theorem isNoise_eq_of_respells (h : Respells path other) : isNoise other = isNoise path := by
  rw [Bool.eq_iff_iff, isNoise_iff, isNoise_iff]
  cases h with
  | letterCase h => rw [foldPath_congr_letterCase h]
  | slashes h => rw [foldPath_congr_slashes h]
  | dotSlash =>
    rw [String.toList_append]
    show (∃ p ∈ noisePatterns, p.Takes (encode (foldPath ('.' :: '/' :: path.toList)))) ∨
      (∃ fragment ∈ noiseFragments,
        fragment.toList <:+: '/' :: foldPath ('.' :: '/' :: path.toList)) ↔ _
    rw [foldPath_dotSlash]
    -- Neither the patterns nor the fragments see the `./` in front.
    refine or_congr ?_ ?_
    · refine exists_congr fun p => and_congr_right fun hp => ?_
      exact Glob.Pattern.takes_dotSlash_iff (floats_of_mem_noisePatterns p hp) _
    · exact exists_congr fun fragment => and_congr_right fun hf => infix_dotSlash_iff hf _

/-! ### Folders around a path -/

/-- Noise is noise below any folder. -/
theorem isNoise_below (h : isNoise path = true) (folder : String) :
    isNoise (folder ++ "/" ++ path) = true := by
  have hpath : (folder ++ "/" ++ path).toList = folder.toList ++ '/' :: path.toList := by
    rw [String.toList_append, String.toList_append, List.append_assoc]
    rfl
  rw [isNoise_iff] at h ⊢
  rw [hpath, foldPath_below]
  -- A pattern matches behind the folder, and a fragment is in the longer path as well.
  rcases h with ⟨p, hp, htakes⟩ | ⟨fragment, hfragment, hinfix⟩
  · left
    refine ⟨p, hp, ?_⟩
    rw [Glob.encode_append, Glob.encode_cons]
    exact htakes.below (floats_of_mem_noisePatterns p hp) _
  · right
    refine ⟨fragment, hfragment, hinfix.trans ?_⟩
    exact ⟨'/' :: foldPath folder.toList, [], by simp⟩

/-! ### The patterns that files are listed with -/

theorem exclusions_nil : exclusions [] = noisePatterns := List.append_nil noisePatterns

/-- Every noise pattern can be read. -/
theorem exists_pathPattern? : ∀ glob ∈ noiseGlobs, (pathPattern? glob).isSome = true := by
  decide +kernel

/-- What is left out of a listing is noise. -/
theorem isNoise_of_exclusions (h : (exclusions []).isMatch path = true) : isNoise path = true := by
  rw [exclusions_nil, Glob.Patterns.isMatch, List.any_eq_true] at h
  obtain ⟨p, hp, hmatch⟩ := h
  have hfloats := floats_of_mem_noisePatterns p hp
  rw [Glob.Pattern.isMatch_iff_takes hfloats] at hmatch
  exact (isNoise_iff path).mpr
    (.inl ⟨p, hp, hmatch.respelt hfloats (by decide) (respelt_foldPath _)⟩)

/-- **Noise, however it is spelled.** Each of the noise patterns is among the exclusions, and what
these match is noise. Whether a path is noise does not change with the case of ASCII letters, with
the direction of its slashes, or with a `./` in front, in whichever order these are changed. What is
noise is noise in every folder. -/
theorem isNoise_dominates (path : String) :
    (∀ glob ∈ noiseGlobs, ∃ p ∈ exclusions [], pathPattern? glob = some p) ∧
      ((exclusions []).isMatch path = true → isNoise path = true) ∧
      (∀ other, Relation.ReflTransGen Respells path other → isNoise other = isNoise path) ∧
      (isNoise path = true → ∀ folder : String, isNoise (folder ++ "/" ++ path) = true) := by
  refine ⟨fun glob hglob => ?_, isNoise_of_exclusions, fun other h => ?_, isNoise_below⟩
  · obtain ⟨p, hp⟩ := Option.isSome_iff_exists.mp (exists_pathPattern? glob hglob)
    rw [exclusions_nil]
    exact ⟨p, List.mem_filterMap.mpr ⟨glob, hglob, hp⟩, hp⟩
  · -- along a chain of spellings, one step after the other
    induction h with
    | refl => rfl
    | tail _ hstep ih => rw [isNoise_eq_of_respells hstep, ih]

/-- A test of another language, with the slashes turned, in capitals and below another folder. -/
theorem isNoise_dominates_respelt : (exclusions []).isMatch "pkg/api_test.go" = true ∧
    isNoise "./PKG\\API_test.go" = true ∧ isNoise "old/pkg/api_test.go" = true := by
  have hmatch : (exclusions []).isMatch "pkg/api_test.go" = true := by decide +kernel
  obtain ⟨-, hnoise, hspelling, hbelow⟩ := isNoise_dominates "pkg/api_test.go"
  have hcapitals : Respells "pkg/api_test.go" "PKG/API_test.go" := .letterCase (by decide)
  have hslash : Respells "PKG/API_test.go" "PKG\\API_test.go" := .slashes (by decide)
  have hchain : Relation.ReflTransGen Respells "pkg/api_test.go" "./PKG\\API_test.go" :=
    .tail (.tail (.single hcapitals) hslash) (.dotSlash _)
  refine ⟨hmatch, ?_, hbelow (hnoise hmatch) "old"⟩
  rw [hspelling _ hchain, hnoise hmatch]

end GuidedTour
