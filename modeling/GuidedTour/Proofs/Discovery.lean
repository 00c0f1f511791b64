import GuidedTour.Proofs.Ranking
import GuidedTour.Workspace.Basic
import Mathlib.Data.List.Perm.Subperm

namespace GuidedTour

/-!
# What a discovery finds

A discovery takes the files that match its patterns, as they are listed. It leaves out the noise,
puts the rest in falling order of what the paths promise and cuts it off at the limit.

* `IsBest` — some paths are the best of a pool;
* `IsDiscovery` — what is promised of the files of a discovery;
* `discover?_isDiscovery` — whatever is listed, and whatever the options are, the promise is kept.
-/

/-- The paths that are no noise. -/
def withoutNoise (paths : List String) : List String := paths.filter fun path => !isNoise path

/-- Paths of a pool, as many as there may be. None that is left out promises more than one of
them. -/
structure IsBest (limit : Nat) (pool files : List String) : Prop where
  length : files.length = min limit pool.length
  best : ∃ omitted, (files ++ omitted).Perm pool ∧
    ∀ file ∈ files, ∀ other ∈ omitted, pathScore other ≤ pathScore file

/-- The files of a discovery, where the candidates are all paths that match its patterns. A limit of
zero is no limit. -/
structure IsDiscovery (limit : Nat) (candidates files : List String) : Prop where
  /-- The files are candidates, none more often than it is listed. -/
  among : files.Subperm candidates
  /-- None of them is noise. -/
  clean : ∀ file ∈ files, isNoise file = false
  /-- They are in falling order of what they promise. -/
  falling : files.Pairwise fun a b => pathScore b ≤ pathScore a
  /-- Those that promise the same are the first ones of their kind, as they are listed. -/
  ties : ∀ score, files.filter (pathScore · = score) <+:
    (withoutNoise candidates).filter (pathScore · = score)
  /-- Without a limit no candidate is left out but noise. -/
  whole : limit = 0 → files.Perm (withoutNoise candidates)
  /-- With a limit the files are the best of the first candidates, three for each file that may be,
  unless there are more candidates than 64 bits count. -/
  best : 0 < limit → candidates.length ≤ natMax64 →
    IsBest limit (withoutNoise (candidates.take (3 * limit))) files
  /-- However many there are, they are the best of those that 64 bits count. -/
  counted : 0 < limit →
    IsBest limit (withoutNoise (candidates.take (min (3 * limit) natMax64))) files

variable {pool candidates : List String} {limit : Nat}

/-! ### The first paths of a pool -/

theorem prioritize_isFalling (paths : List String) :
    IsFalling pathScore paths (prioritize paths) := fallingBy_isFalling pathScore paths

theorem withoutNoise_isPrefix (h : pool <+: candidates) :
    withoutNoise pool <+: withoutNoise candidates := h.filter _

/-- The first paths of a pool are some of the candidates, none of them more often. -/
theorem take_prioritize_subperm (h : pool <+: candidates) (n : Nat) :
    ((prioritize (withoutNoise pool)).take n).Subperm candidates := by
  have htake : ((prioritize (withoutNoise pool)).take n).Subperm (withoutNoise pool) :=
    (List.take_sublist n _).subperm.trans (prioritize_isFalling _).perm.subperm
  have hpool : (withoutNoise pool).Sublist candidates := List.filter_sublist.trans h.sublist
  exact htake.trans hpool.subperm

/-- None of the first paths of a pool is noise. -/
theorem isNoise_of_mem_take_prioritize {n : Nat} {file : String}
    (h : file ∈ (prioritize (withoutNoise pool)).take n) : isNoise file = false := by
  have hmem := (prioritize_isFalling _).perm.mem_iff.mp (List.mem_of_mem_take h)
  simpa using (List.mem_filter.mp hmem).2

/-- The scores of the first paths of a pool fall. -/
theorem take_prioritize_falling (pool : List String) (n : Nat) :
    ((prioritize pool).take n).Pairwise fun a b => pathScore b ≤ pathScore a :=
  (prioritize_isFalling pool).falling.sublist (List.take_sublist n _)

/-- The first paths of a pool that have one score come in the order of the candidates, with none
passed over. -/
theorem take_prioritize_ties (h : pool <+: candidates) (n : Nat) (score : Int) :
    ((prioritize (withoutNoise pool)).take n).filter (pathScore · = score) <+:
      (withoutNoise candidates).filter (pathScore · = score) := by
  have htake := (List.take_prefix n (prioritize (withoutNoise pool))).filter (pathScore · = score)
  rw [(prioritize_isFalling _).stable score] at htake
  exact htake.trans ((withoutNoise_isPrefix h).filter _)

/-- No path of the pool that is left out has a higher score. -/
theorem take_prioritize_isBest (pool : List String) (limit : Nat) :
    IsBest limit pool ((prioritize pool).take limit) where
  length := by rw [List.length_take, (prioritize_isFalling pool).perm.length_eq]
  best := by
    refine ⟨(prioritize pool).drop limit, ?_, (prioritize_isFalling pool).le_of_mem_take limit⟩
    rw [List.take_append_drop]
    exact (prioritize_isFalling pool).perm

/-! ### A discovery -/

/-- A listing with a limit is the start of the listing without it. -/
theorem Workspace.find_some (w : Workspace) (included excluded : Glob.Patterns) (most : Nat) :
    w.find included excluded (some most) = (w.find included excluded none).take most := rfl

/-- Without a limit all candidates are ranked that are no noise. -/
theorem isDiscovery_unlimited (candidates : List String) :
    IsDiscovery 0 candidates (prioritize (withoutNoise candidates)) := by
  have hall := List.take_length (l := prioritize (withoutNoise candidates))
  rw [← hall]
  exact {
    among := take_prioritize_subperm (List.prefix_refl _) _
    clean := fun file => isNoise_of_mem_take_prioritize
    falling := take_prioritize_falling _ _
    ties := take_prioritize_ties (List.prefix_refl _) _
    whole := fun _ => hall.symm ▸ (prioritize_isFalling _).perm
    best := fun hlimit => absurd hlimit (Nat.lt_irrefl 0)
    counted := fun hlimit => absurd hlimit (Nat.lt_irrefl 0) }

/-- With a limit the first candidates are ranked and the first files taken. -/
theorem isDiscovery_limited (hlimit : 0 < limit) (candidates : List String) :
    IsDiscovery limit candidates
      ((prioritize (withoutNoise (candidates.take (min (3 * limit) natMax64)))).take limit) where
  among := take_prioritize_subperm (List.take_prefix _ _) _
  clean := fun file => isNoise_of_mem_take_prioritize
  falling := take_prioritize_falling _ _
  ties := take_prioritize_ties (List.take_prefix _ _) _
  whole := fun hzero => absurd hzero hlimit.ne'
  best := by
    intro _ hcounted
    have hfirst : candidates.take (3 * limit) = candidates.take (min (3 * limit) natMax64) := by
      rw [← List.take_take, List.take_of_length_le hcounted]
    rw [hfirst]
    exact take_prioritize_isBest _ limit
  counted := fun _ => take_prioritize_isBest _ limit

/-- **A discovery finds the best files.** Whatever is listed, and whatever the options are as long
as the extensions make a pattern, the discovery comes to files that keep the promise. -/
theorem discover?_isDiscovery (w : Workspace) (options : DiscoveryOptions)
    {included : Glob.Patterns} (hvalid : inclusions? options.includeExtensions = some included) :
    ∃ files, w.discover? options = some files ∧
      IsDiscovery options.limit (w.find included (exclusions options.excludePatterns) none)
        files := by
  simp only [Workspace.discover?, hvalid, Option.map_some, Option.some.injEq, exists_eq_left',
    selectFiles, DiscoveryOptions.candidateCap]
  generalize exclusions options.excludePatterns = excluded
  rcases Nat.eq_zero_or_pos options.limit with hzero | hlimit
  · simp only [hzero, beq_self_eq_true, if_true]
    exact isDiscovery_unlimited _
  · have hne : (options.limit == 0) = false := by simpa using hlimit.ne'
    simp only [hne, Bool.false_eq_true, if_false, Workspace.find_some, candidateFactor,
      Nat.mul_comm options.limit]
    exact isDiscovery_limited hlimit _

/-- Listed files with noise that the patterns leave out, noise that they do not, three files of one
score, and two files that promise most. -/
def mixedListing : Workspace where
  root := "/w"
  name := "w"
  listed := ["OUT/a.ts", "out/b.ts", "c.ts", "lib/a.ts", "docs/d.ts", "pkg/b.ts", "src/index.ts",
    "core/z.ts", "e.ts", "f.ts", "src/main.ts"]
  textOf? _ := none

/-- For three files nine candidates are looked at. The best of them was listed late and comes first;
of the three that promise the same the third is left out. The last file would be better than these,
but comes too late. -/
theorem discover?_isDiscovery_mixedListing :
    let options : DiscoveryOptions := { includeExtensions := [" .TS"], limit := 3 }
    let files := ["src/index.ts", "lib/a.ts", "pkg/b.ts"]
    ∃ included, inclusions? options.includeExtensions = some included ∧
      mixedListing.discover? options = some files ∧
      (mixedListing.find included (exclusions []) none).map pathScore =
        [-2, 0, 48, -2, 48, 148, 48, 0, 0, 148] ∧
      IsDiscovery 3 (mixedListing.find included (exclusions []) none) files := by
  intro options files
  have hfiles : mixedListing.discover? options = some files := by
    -- The sort is evaluated as an insertion sort, which the kernel can run.
    simp only [Workspace.discover?, selectFiles, prioritize, fallingBy_eq_insertionSort]
    decide +kernel
  obtain ⟨included, hvalid⟩ : ∃ included, inclusions? options.includeExtensions = some included :=
    Option.isSome_iff_exists.mp (by decide +kernel)
  have hscores : (inclusions? options.includeExtensions).map (fun included =>
      (mixedListing.find included (exclusions []) none).map pathScore) =
        some [-2, 0, 48, -2, 48, 148, 48, 0, 0, 148] := by decide +kernel
  rw [hvalid] at hscores
  obtain ⟨found, hfound, hpromise⟩ := discover?_isDiscovery mixedListing options hvalid
  obtain rfl : found = files := Option.some.inj (hfound.symm.trans hfiles)
  exact ⟨included, hvalid, hfiles, Option.some.inj hscores, hpromise⟩

end GuidedTour
