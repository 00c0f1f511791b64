import GuidedTour.Proofs.Chunks
import GuidedTour.Proofs.Ranking

namespace GuidedTour

/-!
# Batches of a project

The files that have something to tell are ranked, cut into batches and digested. Nothing is lost or
doubled on the way.

* `IsToured` — the files of a tour: each as often as the project has it, in falling order of
  importance;
* `IsPlan` — batches that are full but for the last and hold these files in their order, each with
  the digest of its own files;
* `touredFiles_isToured`, `plan_isPlan` — the files and the batches are so;
* `plan_losesNothing` — both at once.
-/

variable {p : Project} {file : String} {files : List String}

/-- The files of a tour. -/
structure IsToured (p : Project) (files : List String) : Prop where
  /-- A path occurs as often as the project has a file under it that has an element and is no
  noise. -/
  counts : ∀ file, files.count file =
    p.files.countP fun o => o.file == file && (!o.elements.isEmpty && !isNoise o.file)
  /-- The files are in falling order of importance; those of one importance stand as in the
  project. -/
  ranked : ∃ outlines, files = outlines.map Outline.file ∧
    IsFalling (importance p) (p.files.filter fun o => !o.elements.isEmpty && !isNoise o.file)
      outlines

/-- A value that describes a file of a project: the digest of the outline that the project has first
under the path. It begins with the path. -/
structure Project.Describes (p : Project) (file : String) (value : Json) : Prop where
  outline : ∃ o, p.file? file = some o ∧ o.file = file ∧ value = o.digest (p.isEntryPoint file)
  named : ∃ members, value = .object (("file", .string file) :: members)

/-- Batches of the files of a tour. -/
structure IsPlan (p : Project) (size : Nat) (batches : List Batch) : Prop where
  /-- The batches together are the files. -/
  together : (batches.map Batch.files).flatten = touredFiles p
  /-- No batch is empty or holds more files than it may. -/
  sizes : ∀ b ∈ batches, 1 ≤ b.files.length ∧ b.files.length ≤ max 1 size
  /-- All batches but the last are full. -/
  full : ∀ b ∈ batches.dropLast, b.files.length = max 1 size
  /-- A digest is a list of values that describe the files of its batch in their order. -/
  digests : ∀ b ∈ batches, ∃ values, b.digest = String.ofList (Json.array values).compact ∧
    List.Forall₂ p.Describes b.files values

/-! ### The files of a tour -/

/-- What is toured are the files with an element that are no noise, in falling order of importance.
-/
theorem touredFiles_isToured (p : Project) : IsToured p (touredFiles p) := by
  have hfalling := fallingBy_isFalling (importance p)
    (p.files.filter fun o => !o.isEmpty && !isNoise o.file)
  refine ⟨fun file => ?_, _, rfl, hfalling⟩
  rw [touredFiles, List.count, List.countP_map, hfalling.perm.countP_eq, List.countP_filter]
  rfl

/-- Each toured file is one of the project. -/
theorem exists_of_mem_touredFiles (h : file ∈ touredFiles p) : ∃ o ∈ p.files, o.file = file := by
  have hcount : 0 < (touredFiles p).count file := List.count_pos_iff.mpr h
  rw [(touredFiles_isToured p).counts, List.countP_pos_iff] at hcount
  obtain ⟨o, ho, hfile⟩ := hcount
  exact ⟨o, ho, by simpa using (Bool.and_eq_true_iff.mp hfile).1⟩

/-! ### Digests -/

/-- A file of the project is found under its path. -/
theorem exists_file?_eq_some (h : ∃ o ∈ p.files, o.file = file) :
    ∃ o, p.file? file = some o ∧ o.file = file := by
  obtain ⟨o, ho, hfile⟩ := h
  have hsome : (p.file? file).isSome := List.find?_isSome.mpr ⟨o, ho, by simpa using hfile⟩
  obtain ⟨first, hfirst⟩ := Option.isSome_iff_exists.mp hsome
  exact ⟨first, hfirst, by simpa using List.find?_some hfirst⟩

/-- The digest of a file describes it. -/
theorem describes_digest {o : Outline} (h : p.file? file = some o) (hfile : o.file = file) :
    p.Describes file (o.digest (p.isEntryPoint o.file)) := by
  subst hfile
  exact ⟨⟨o, h, rfl, rfl⟩, _, rfl⟩

/-- Files of the project are digested one by one. -/
theorem exists_digestValue (h : ∀ file ∈ files, ∃ o ∈ p.files, o.file = file) :
    ∃ values, p.digestValue files = .array values ∧ List.Forall₂ p.Describes files values := by
  refine ⟨_, rfl, ?_⟩
  induction files with
  | nil => exact .nil
  | cons file files ih =>
    obtain ⟨o, ho, hfile⟩ := exists_file?_eq_some (h file List.mem_cons_self)
    rw [List.filterMap_cons_some ho, List.map_cons]
    exact .cons (describes_digest ho hfile) (ih fun other hother => h other (.tail _ hother))

/-! ### Batches -/

theorem plan_files (p : Project) (options : BatchOptions) :
    (plan p options).map Batch.files = chunks options.batchSize (touredFiles p) := by
  simp [plan, Function.comp_def]

/-- The batches are a plan of the project. -/
theorem plan_isPlan (p : Project) (options : BatchOptions) :
    IsPlan p options.batchSize (plan p options) where
  together := by rw [plan_files, chunks_flatten]
  sizes := by
    intro b hb
    have hchunk : b.files ∈ chunks options.batchSize (touredFiles p) :=
      plan_files p options ▸ List.mem_map_of_mem hb
    exact ⟨length_pos_of_mem_chunks hchunk, length_le_of_mem_chunks hchunk⟩
  full := by
    intro b hb
    have hchunk : b.files ∈ (chunks options.batchSize (touredFiles p)).dropLast := by
      rw [← plan_files, ← List.map_dropLast]
      exact List.mem_map_of_mem hb
    exact length_of_mem_dropLast_chunks hchunk
  digests := by
    intro b hb
    obtain ⟨chunk, hchunk, rfl⟩ := List.mem_map.mp hb
    -- The files of a chunk are toured, so each has an outline.
    have hlisted : ∀ file ∈ chunk, ∃ o ∈ p.files, o.file = file := by
      intro file hfile
      refine exists_of_mem_touredFiles ?_
      rw [← chunks_flatten options.batchSize (touredFiles p)]
      exact List.mem_flatten_of_mem hchunk hfile
    obtain ⟨values, hvalues, hdescribes⟩ := exists_digestValue hlisted
    exact ⟨values, by rw [Project.digest, hvalues], hdescribes⟩

/-- **Ranking and batching lose nothing.** The files of a tour are those of the project that have
something to tell, each as often as it is there, the most important first; and the batches are these
files in their order, full but for the last, each with the digest of exactly its own files. -/
theorem plan_losesNothing (p : Project) (options : BatchOptions) :
    IsToured p (touredFiles p) ∧ IsPlan p options.batchSize (plan p options) :=
  ⟨touredFiles_isToured p, plan_isPlan p options⟩

end GuidedTour
