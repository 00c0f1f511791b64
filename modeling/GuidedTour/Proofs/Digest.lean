import GuidedTour.Proofs.DraftJson
import GuidedTour.Proofs.Json.Fields
import GuidedTour.Proofs.Outline.Entry
import GuidedTour.Tour.Digest

namespace GuidedTour

/-!
# What a digest says

A digest is one line of JSON. Read back, it has an object for each file, which says what the outline
of the file says, up to the greatest numbers of elements, members and statements.

* `Element.IsSized`, `Outline.IsSized`, `Project.IsSized` — all numbers of lines fit in 64 bits;
* `Element.IsMemberDigest`, `Element.IsDigest`, `Outline.IsDigest` — what the objects say of a
  member of a class, of an element and of a file;
* `Element.isDigest_digest`, `Outline.isDigest_digest` — that is what their digests say;
* `Project.parse_digest` — the digests come back from the line of JSON;
* `digest_tells` — the line describes each listed file of the project, in the order of the list.
-/

/-! ### Numbers that fit -/

/-- The lines of an element, and of all that is nested in it, fit in 64 bits. -/
structure Element.IsSized (e : Element) : Prop where
  lines : ∀ d ∈ e.listing, d.startLine ≤ natMax64 ∧ d.endLine ≤ natMax64

/-- The number of lines of a file and the lines of its elements fit in 64 bits. -/
structure Outline.IsSized (o : Outline) : Prop where
  lineCount : o.lineCount ≤ natMax64
  elements : ∀ e ∈ o.elements, e.IsSized

/-- All numbers of lines in a project fit in 64 bits. -/
structure Project.IsSized (p : Project) : Prop where
  files : ∀ o ∈ p.files, o.IsSized

instance Element.decidableIsSized (e : Element) : Decidable e.IsSized :=
  decidable_of_iff (∀ d ∈ e.listing, d.startLine ≤ natMax64 ∧ d.endLine ≤ natMax64)
    ⟨fun h => ⟨h⟩, fun h => h.lines⟩

instance Outline.decidableIsSized (o : Outline) : Decidable o.IsSized :=
  decidable_of_iff (o.lineCount ≤ natMax64 ∧ ∀ e ∈ o.elements, e.IsSized)
    ⟨fun h => ⟨h.1, h.2⟩, fun h => ⟨h.lineCount, h.elements⟩⟩

instance Project.decidableIsSized (p : Project) : Decidable p.IsSized :=
  decidable_of_iff (∀ o ∈ p.files, o.IsSized) ⟨fun h => ⟨h⟩, fun h => h.files⟩

namespace Element.IsSized

variable {e c : Element}

theorem startLine (h : e.IsSized) : e.startLine ≤ natMax64 :=
  (h.lines e (by rw [listing_eq]; exact List.mem_cons_self)).1

theorem endLine (h : e.IsSized) : e.endLine ≤ natMax64 :=
  (h.lines e (by rw [listing_eq]; exact List.mem_cons_self)).2

/-- If the lines of an element fit, so do those of its children. -/
theorem of_mem_children (h : e.IsSized) (hc : c ∈ e.children) : c.IsSized := by
  refine ⟨fun d hd => h.lines d ?_⟩
  rw [listing_eq, listings_eq_flatMap]
  exact List.mem_cons_of_mem e (List.mem_flatMap.mpr ⟨c, hc, hd⟩)

end Element.IsSized

/-- Numbers fit in an element if they fit in its own lines and in each of its children. -/
theorem Element.isSized_iff {e : Element} : e.IsSized ↔
    e.startLine ≤ natMax64 ∧ e.endLine ≤ natMax64 ∧ ∀ c ∈ e.children, c.IsSized := by
  refine ⟨fun h => ⟨h.startLine, h.endLine, fun c hc => h.of_mem_children hc⟩, ?_⟩
  rintro ⟨hstart, hend, hchildren⟩
  refine ⟨fun d hd => ?_⟩
  rw [listing_eq, listings_eq_flatMap, List.mem_cons, List.mem_flatMap] at hd
  rcases hd with rfl | ⟨c, hc, hd⟩
  · exact ⟨hstart, hend⟩
  · exact (hchildren c hc).lines d hd

/-! ### Members of classes -/

namespace Element

/-- What is said of a member of a class: its name and the line where it starts. -/
structure IsMemberDigest (e : Element) (value : Json) : Prop where
  name : value.member? "name" = some (.string e.name)
  line : value.member? "line" = some (.nat e.startLine)
  only : value.HasOnly ["name", "line"]

/-- The fields of the digest of a member. -/
def memberFields (e : Element) : List (String × Option Json) :=
  [("name", some (.string e.name)), ("line", some (.nat e.startLine))]

theorem memberDigest_eq (e : Element) : e.memberDigest = .object (Json.ofFields e.memberFields) := rfl

/-- The digest of a member says what is to be said of it. -/
theorem isMemberDigest_memberDigest (e : Element) : e.IsMemberDigest e.memberDigest where
  name := rfl
  line := rfl
  only := Json.hasOnly_ofFields e.memberFields

/-- The numbers in the digest of a member fit if its lines do. -/
theorem numbersFit_memberDigest {e : Element} (h : e.IsSized) : e.memberDigest.NumbersFit := by
  rw [memberDigest_eq]
  refine Json.numbersFit_ofFields ?_
  simp [memberFields, Json.NumbersFit, Json.numbersFit_nat h.startLine]

/-- The digest of a member is no deeper than one object. -/
theorem isPlain_memberDigest (e : Element) (depth : Nat) : e.memberDigest.IsPlain (depth + 1) := by
  rw [memberDigest_eq]
  refine Json.isPlain_ofFields (by simp [memberFields]) ?_
  simp [memberFields, Json.nat, Json.IsPlain]

/-! ### Elements -/

/-- What is said of an element. Nested classes are named apart from all other members. -/
structure IsDigest (e : Element) (value : Json) : Prop where
  kind : value.member? "kind" = some (.string e.kind.word)
  name : value.member? "name" = some (.string e.name)
  line : value.member? "line" = some (.nat e.startLine)
  endLine : value.member? "endLine" =
    if e.startLine < e.endLine then some (.nat e.endLine) else none
  methods : value.Lists "methods" IsMemberDigest
    ((e.children.filter fun child => child.kind ≠ .classLike).take 20)
  classes : value.Lists "classes" IsMemberDigest
    ((e.children.filter fun child => child.kind = .classLike).take 20)
  only : value.HasOnly ["kind", "name", "line", "endLine", "methods", "classes"]

/-- The fields of the digest of an element. -/
def digestFields (e : Element) : List (String × Option Json) :=
  [("kind", some (.string e.kind.word)), ("name", some (.string e.name)),
    ("line", some (.nat e.startLine)),
    ("endLine", if e.startLine < e.endLine then some (.nat e.endLine) else none),
    ("methods", Json.nonempty? (memberDigests (e.children.filter fun c => !c.kind.isClass))),
    ("classes", Json.nonempty? (memberDigests (e.children.filter fun c => c.kind.isClass)))]

theorem digest_eq (e : Element) : e.digest = .object (Json.ofFields e.digestFields) := by
  simp only [digest, digestFields, Json.ofFields, Json.nonempty?, listMember]
  repeat' split
  all_goals rfl

theorem isClass_eq (kind : ElementKind) : kind.isClass = decide (kind = .classLike) := rfl

/-- A field with the digests of members lists the first twenty of them, and is left out where there
are none. -/
theorem lists_memberDigests {value : Json} {key : String} {members : List Element}
    (h : value.member? key = Json.nonempty? (memberDigests members)) :
    value.Lists key IsMemberDigest (members.take 20) :=
  Json.lists_of_nonempty? h fun child _ => child.isMemberDigest_memberDigest

/-- The digest of an element says what is to be said of it. -/
theorem isDigest_digest (e : Element) : e.IsDigest e.digest := by
  have hlookup : ∀ key, e.digest.member? key = (e.digestFields.lookup key).join := by
    intro key
    rw [digest_eq]
    exact Json.lookup_ofFields (by simp [digestFields]) key
  -- A field without a value is not in the object, so each key looks up what the table has for it.
  refine ⟨hlookup "kind", hlookup "name", hlookup "line", hlookup "endLine", ?methods, ?classes, ?only⟩
  case methods =>
    simp only [ne_eq, decide_not, ← isClass_eq]
    exact lists_memberDigests (hlookup "methods")
  case classes =>
    simp only [← isClass_eq]
    exact lists_memberDigests (hlookup "classes")
  case only =>
    rw [digest_eq]
    exact Json.hasOnly_ofFields e.digestFields

theorem numbersFit_memberDigests {members : List Element} (h : ∀ c ∈ members, c.IsSized) :
    ∀ value ∈ Json.nonempty? (memberDigests members), value.NumbersFit :=
  Json.numbersFit_nonempty? fun c hc => numbersFit_memberDigest (h c (List.mem_of_mem_take hc))

theorem isPlain_memberDigests (members : List Element) (depth : Nat) :
    ∀ value ∈ Json.nonempty? (memberDigests members), value.IsPlain (depth + 2) :=
  Json.isPlain_nonempty? fun c _ => isPlain_memberDigest c depth

/-- The numbers in the digest of an element fit if its lines and those of its children do. -/
theorem numbersFit_digest {e : Element} (h : e.IsSized) : e.digest.NumbersFit := by
  have hchildren : ∀ p : Element → Bool, ∀ c ∈ e.children.filter p, c.IsSized :=
    fun p c hc => h.of_mem_children (List.mem_of_mem_filter hc)
  have hend : ∀ value ∈ (if e.startLine < e.endLine then some (Json.nat e.endLine) else none),
      value.NumbersFit := by
    split
    · simpa using Json.numbersFit_nat h.endLine
    · simp
  rw [digest_eq]
  refine Json.numbersFit_ofFields ?_
  simp only [digestFields, List.forall_mem_cons]
  -- Only the fields with lines have numbers: the others are words or lists of digests.
  refine ⟨?_, ?_, ?_, hend, numbersFit_memberDigests (hchildren _),
    numbersFit_memberDigests (hchildren _), by simp⟩
  · simp [Json.NumbersFit]
  · simp [Json.NumbersFit]
  · simpa using Json.numbersFit_nat h.startLine

/-- The digest of an element is an object with lists of objects, and no deeper. -/
theorem isPlain_digest (e : Element) (depth : Nat) : e.digest.IsPlain (depth + 3) := by
  have hend : ∀ value ∈ (if e.startLine < e.endLine then some (Json.nat e.endLine) else none),
      value.IsPlain (depth + 2) := by
    split <;> simp [Json.nat, Json.IsPlain]
  rw [digest_eq]
  refine Json.isPlain_ofFields (by simp [digestFields]) ?_
  simp only [digestFields, List.forall_mem_cons]
  refine ⟨?_, ?_, ?_, hend, isPlain_memberDigests _ depth, isPlain_memberDigests _ depth, by simp⟩ <;>
    simp [Json.nat, Json.IsPlain]

end Element

/-! ### Files -/

namespace Outline

/-- What is said of a file of a project. -/
structure IsDigest (p : Project) (o : Outline) (value : Json) : Prop where
  file : value.member? "file" = some (.string o.file)
  language : value.member? "language" = some (.string o.language)
  entryPoint : value.member? "entryPoint" =
    if o.file ∈ p.entryPoints then some (.bool true) else none
  lines : value.member? "lines" = some (.nat o.lineCount)
  elements : ∃ values, value.member? "elements" = some (.array values) ∧
    List.Forall₂ Element.IsDigest (o.elements.take 40) values
  imports : value.Lists "imports" (fun s v => v = .string s) (o.imports.take 8)
  exports : value.Lists "exports" (fun s v => v = .string s) (o.exports.take 8)
  only : value.HasOnly
    ["file", "language", "entryPoint", "lines", "elements", "imports", "exports"]

/-- The fields of the digest of a file. -/
def digestFields (o : Outline) (isEntryPoint : Bool) : List (String × Option Json) :=
  [("file", some (.string o.file)), ("language", some (.string o.language)),
    ("entryPoint", if isEntryPoint then some (.bool true) else none),
    ("lines", some (.nat o.lineCount)),
    ("elements", some (.array ((o.elements.take maxDigestElements).map Element.digest))),
    ("imports", Json.nonempty? ((o.imports.take maxDigestStatements).map .string)),
    ("exports", Json.nonempty? ((o.exports.take maxDigestStatements).map .string))]

theorem digest_eq (o : Outline) (isEntryPoint : Bool) :
    o.digest isEntryPoint = .object (Json.ofFields (o.digestFields isEntryPoint)) := by
  simp only [digest, digestFields, Json.ofFields, Json.nonempty?, listMember]
  repeat' split
  all_goals rfl

/-- The digest of a file says what is to be said of it. -/
theorem isDigest_digest (p : Project) (o : Outline) :
    o.IsDigest p (o.digest (p.isEntryPoint o.file)) := by
  have hlookup : ∀ key, (o.digest (p.isEntryPoint o.file)).member? key =
      ((o.digestFields (p.isEntryPoint o.file)).lookup key).join := by
    intro key
    rw [digest_eq]
    exact Json.lookup_ofFields (by simp [digestFields]) key
  refine ⟨hlookup "file", hlookup "language", ?entryPoint, hlookup "lines",
    ⟨_, hlookup "elements", Json.forall₂_map fun e _ => e.isDigest_digest⟩,
    Json.lists_of_nonempty? (hlookup "imports") fun _ _ => rfl,
    Json.lists_of_nonempty? (hlookup "exports") fun _ _ => rfl, ?only⟩
  case entryPoint =>
    have hentry : p.isEntryPoint o.file = decide (o.file ∈ p.entryPoints) := List.contains_eq_mem _ _
    rw [hlookup, hentry]
    simp only [digestFields, decide_eq_true_eq]
    rfl
  case only =>
    rw [digest_eq]
    exact Json.hasOnly_ofFields (o.digestFields (p.isEntryPoint o.file))

/-- The numbers in the digest of a file fit if those of its outline do. -/
theorem numbersFit_digest {o : Outline} (h : o.IsSized) (isEntryPoint : Bool) :
    (o.digest isEntryPoint).NumbersFit := by
  have helements : (Json.array ((o.elements.take maxDigestElements).map Element.digest)).NumbersFit :=
    Json.itemsFit_iff.mpr (List.forall_mem_map.mpr fun e he =>
      Element.numbersFit_digest (h.elements e (List.mem_of_mem_take he)))
  have hstatements : ∀ statements : List String,
      ∀ value ∈ Json.nonempty? (statements.map Json.string), value.NumbersFit :=
    fun _ => Json.numbersFit_nonempty? fun _ _ => trivial
  have hentry : ∀ value ∈ (if isEntryPoint then some (Json.bool true) else none),
      value.NumbersFit := by
    split <;> simp [Json.NumbersFit]
  rw [digest_eq]
  refine Json.numbersFit_ofFields ?_
  simp only [digestFields, List.forall_mem_cons]
  refine ⟨?_, ?_, hentry, ?_, ?_, hstatements _, hstatements _, by simp⟩
  · simp [Json.NumbersFit]
  · simp [Json.NumbersFit]
  · simpa using Json.numbersFit_nat h.lineCount
  · simpa using helements

/-- The digest of a file lists the digests of its elements, and is no deeper. -/
theorem isPlain_digest (o : Outline) (isEntryPoint : Bool) (depth : Nat) :
    (o.digest isEntryPoint).IsPlain (depth + 5) := by
  have helements : (Json.array ((o.elements.take maxDigestElements).map Element.digest)).IsPlain
      (depth + 4) :=
    Json.itemsPlain_iff.mpr (List.forall_mem_map.mpr fun e _ => e.isPlain_digest depth)
  have hstatements : ∀ statements : List String,
      ∀ value ∈ Json.nonempty? (statements.map Json.string), value.IsPlain (depth + 4) :=
    fun _ => Json.isPlain_nonempty? fun _ _ => trivial
  have hentry : ∀ value ∈ (if isEntryPoint then some (Json.bool true) else none),
      value.IsPlain (depth + 4) := by
    split <;> simp [Json.IsPlain]
  rw [digest_eq]
  refine Json.isPlain_ofFields (by simp [digestFields]) ?_
  simp only [digestFields, List.forall_mem_cons]
  refine ⟨?_, ?_, hentry, ?_, ?_, hstatements _, hstatements _, by simp⟩
  · simp [Json.IsPlain]
  · simp [Json.IsPlain]
  · simp [Json.nat, Json.IsPlain]
  · simpa using helements

end Outline

/-- The line of JSON is read back as the digests of the files. -/
theorem Project.parse_digest {p : Project} (h : p.IsSized) (files : List String) :
    Json.parse (p.digest files).toList = some (p.digestValue files) := by
  have hfit : (p.digestValue files).NumbersFit := by
    refine Json.itemsFit_iff.mpr (List.forall_mem_map.mpr fun o ho =>
      Outline.numbersFit_digest (h.files o ?_) _)
    obtain ⟨file, -, hfile⟩ := List.mem_filterMap.mp ho
    exact List.mem_of_find?_eq_some hfile
  -- The list stands around the digests, which are five deep at most.
  have hplain : (p.digestValue files).IsPlain Document.maxDepth :=
    Json.itemsPlain_iff.mpr (List.forall_mem_map.mpr fun o _ => o.isPlain_digest _ 121)
  rw [digest, String.toList_ofList]
  exact Json.parse_compact hfit hplain

/-- **What a digest says.** Read as JSON, a digest has an object for each path of the list that is
the path of an outlined file, in the order of the list, and the object says what the first outline
with that path says. -/
theorem digest_tells {p : Project} (h : p.IsSized) (files : List String) :
    ∃ values, Json.parse (p.digest files).toList = some (.array values) ∧
      List.Forall₂ (fun o value => o.IsDigest p value)
        (files.filterMap fun file => p.files.find? fun o => o.file = file) values := by
  refine ⟨_, Project.parse_digest h files, Json.forall₂_map fun o _ => ?_⟩
  exact o.isDigest_digest p

/-- An outline with a nested class before a method, a name that has to be escaped, and the greatest
number of lines. -/
def nestedClass : Outline :=
  ⟨"a\\b.py", "python", [⟨.classLike, "\"User\"", "a\\b.py", 1, natMax64,
    [.leaf .classLike "Meta" "a\\b.py" 2 3, .leaf .method "save\n" "a\\b.py" 5 5]⟩],
    ["import os"], [], natMax64⟩

/-- The outline is listed twice, after a path of no file. The second outline with its path is passed
over. -/
theorem digest_tells_nestedClass :
    let other : Outline := ⟨"a\\b.py", "rust", [], [], [], 0⟩
    let p : Project := ⟨"/w", [nestedClass, other], ["a\\b.py"], []⟩
    p.IsSized ∧ ∃ first second,
      Json.parse (p.digest ["c.py", "a\\b.py", "a\\b.py"]).toList = some (.array [first, second]) ∧
        nestedClass.IsDigest p first ∧ nestedClass.IsDigest p second := by
  intro other p
  have hsized : p.IsSized := by decide +kernel
  obtain ⟨values, hparse, hvalues⟩ := digest_tells hsized ["c.py", "a\\b.py", "a\\b.py"]
  have hlisted : (["c.py", "a\\b.py", "a\\b.py"].filterMap fun file =>
      p.files.find? fun o => o.file = file) = [nestedClass, nestedClass] := rfl
  rw [hlisted] at hvalues
  -- Two objects are in the list, and both are of the first outline.
  obtain _ | ⟨hfirst, _ | ⟨hsecond, ⟨⟩⟩⟩ := hvalues
  exact ⟨hsized, _, _, hparse, hfirst, hsecond⟩

end GuidedTour
