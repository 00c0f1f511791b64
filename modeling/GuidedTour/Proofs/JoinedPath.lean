import GuidedTour.Path

namespace GuidedTour

/-!
# What a path under another one is made of

* `underneath`, `join_eq` — the text that a relative path is put behind;
* `join_join` — joining twice is joining once, with a slash between;
* `components_join` — a path under another one has the components of both, in this order. So nothing
  but a `..` of its own leads a relative path out of its folder.
-/

variable {base s t piece : List Char}

namespace Text

/-! ### Pieces between separators -/

/-- Splitting at a separator goes on behind it. -/
theorem splitFrom_append (separator : Char) (a s : List Char) :
    splitFrom separator piece (a ++ separator :: s) =
      splitFrom separator piece a ++ splitAll separator s := by
  induction a generalizing piece with
  | nil => simp [splitFrom, splitAll]
  | cons c a ih =>
    rw [List.cons_append, splitFrom, splitFrom]
    split
    · rw [ih, List.cons_append]
    · exact ih

/-- A text without separators is one piece. -/
theorem splitFrom_of_notMem {separator : Char} (hs : separator ∉ s) :
    splitFrom separator piece s = [piece.reverse ++ s] := by
  induction s generalizing piece with
  | nil => simp [splitFrom]
  | cons c s ih =>
    rw [List.mem_cons, not_or] at hs
    have hc : (c == separator) = false := beq_eq_false_iff_ne.mpr fun h => hs.1 h.symm
    rw [splitFrom, hc, if_neg Bool.false_ne_true, ih hs.2, List.reverse_cons,
      List.append_assoc, List.singleton_append]

end Text

namespace Path

/-! ### Joining -/

/-- A path that does not begin at the root. -/
def IsRelative (s : List Char) : Prop := ∀ c ∈ s.head?, c ≠ '/'

/-- The text that a relative path is put behind: the base, and a slash unless there is one. -/
def underneath (base : List Char) : List Char :=
  if base.isEmpty || base.getLast? == some '/' then base else base ++ ['/']

/-- A relative path is put underneath the base. -/
theorem join_eq (hs : IsRelative s) (base : List Char) : join base s = underneath base ++ s := by
  unfold join
  split
  · exact absurd rfl (hs '/' rfl)
  · unfold underneath
    split
    · rfl
    · rw [List.append_assoc]
      rfl

/-- A base that is not empty ends in a slash then. -/
theorem underneath_cases (base : List Char) :
    base = [] ∧ underneath base = [] ∨ base ≠ [] ∧
      ∃ before, underneath base = before ++ ['/'] ∧ (base = before ++ ['/'] ∨ base = before) := by
  unfold underneath
  split
  · next h =>
    rw [Bool.or_eq_true, List.isEmpty_iff, beq_iff_eq] at h
    rcases h with hnil | hslash
    · exact .inl ⟨hnil, hnil⟩
    · obtain ⟨before, hbefore⟩ := List.getLast?_eq_some_iff.mp hslash
      exact .inr ⟨by simp [hbefore], before, hbefore, .inl hbefore⟩
  · next h =>
    refine .inr ⟨fun hnil => h ?_, base, rfl, .inr rfl⟩
    rw [hnil]
    rfl

/-- Underneath a path without a last slash comes a slash. -/
theorem underneath_append (hne : s ≠ []) (hlast : s.getLast? ≠ some '/') (base : List Char) :
    underneath (base ++ s) = base ++ s ++ ['/'] := by
  have hbase : (base ++ s).getLast? ≠ some '/' := by
    rwa [List.getLast?_append, Option.or_of_isSome (by simpa using hne)]
  unfold underneath
  rw [if_neg]
  simpa [hne] using hbase

/-- Joining twice puts a slash between the two parts. -/
theorem join_join (hs : IsRelative s) (hne : s ≠ []) (hlast : s.getLast? ≠ some '/')
    (ht : IsRelative t) (base : List Char) :
    join (join base s) t = join base (s ++ '/' :: t) := by
  have hboth : IsRelative (s ++ '/' :: t) := by
    intro c hc
    rw [List.head?_append, Option.or_of_isSome (by simpa using hne)] at hc
    exact hs c hc
  rw [join_eq ht, join_eq hs, join_eq hboth, underneath_append hne hlast]
  simp

/-! ### Components -/

/-- What a path begins with is settled before its first slash, unless it begins with that. -/
theorem leading_append_slash (hne : s ≠ []) (t : List Char) :
    leading (s ++ '/' :: t) = leading s := by
  rcases s with _ | ⟨c, _ | ⟨d, s⟩⟩
  · exact absurd rfl hne
  · by_cases hdot : c = '.'
    · subst hdot
      rfl
    · by_cases hslash : c = '/'
      · subst hslash
        rfl
      · simp [leading, hdot, hslash]
  · -- two characters say it all
    simp only [List.cons_append]
    unfold leading
    split <;> simp_all

/-- The components but for the one that a path begins with. -/
def inner (s : List Char) : List Component := (Text.splitAll '/' s).filterMap component?

/-- The inner components on both sides of a slash follow one another. -/
theorem inner_append_slash (a s : List Char) : inner (a ++ '/' :: s) = inner a ++ inner s := by
  unfold inner
  rw [Text.splitAll, Text.splitFrom_append, List.filterMap_append]
  rfl

theorem inner_nil : inner [] = [] := rfl

/-- Behind a slash there are inner components only. -/
theorem components_append_slash (a s : List Char) :
    components (a ++ '/' :: s) = components (a ++ ['/']) ++ inner s := by
  have hleading : leading (a ++ '/' :: s) = leading (a ++ ['/']) := by
    by_cases hnil : a = []
    · rw [hnil]
      rfl
    · rw [leading_append_slash hnil, leading_append_slash hnil]
  show leading _ ++ inner _ = leading _ ++ inner _ ++ _
  rw [hleading, inner_append_slash, inner_append_slash, inner_nil, List.append_nil,
    List.append_assoc]

/-- A slash at the end counts for nothing. -/
theorem components_concat_slash (hne : s ≠ []) : components (s ++ ['/']) = components s := by
  show leading _ ++ inner _ = leading _ ++ inner _
  rw [leading_append_slash hne, inner_append_slash, inner_nil, List.append_nil]

/-- The components of a path under another one. -/
theorem components_join (hs : IsRelative s) (hleading : leading s = []) (base : List Char) :
    components (join base s) = components base ++ components s := by
  have hown : components s = inner s := by
    show leading s ++ inner s = inner s
    rw [hleading, List.nil_append]
  rw [join_eq hs]
  rcases underneath_cases base with ⟨hnil, hunder⟩ | ⟨hne, before, hunder, hbase⟩
  · rw [hunder, hnil]
    rfl
  · rw [hunder, List.append_assoc, List.singleton_append, components_append_slash, hown]
    rcases hbase with rfl | rfl
    · rfl
    · rw [components_concat_slash hne]

end Path

end GuidedTour
