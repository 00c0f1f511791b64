import GuidedTour.Glob.Reader
import GuidedTour.Proofs.Glob.Accepting

namespace GuidedTour.Glob

open scoped List

/-!
# Patterns of plain text

What has no meaning of its own in a pattern stands for itself.

* `marks`, `IsPlainText` — the characters that have a meaning, and texts without them;
* `readFrom_plainText`, `readFrom_branches` — plain texts are read as literals, and so are plain
  texts between braces;
* `exists_parse?_ending`, `exists_parse?_endings` — the patterns for one ending of a path and for
  several, and which paths they match.
-/

variable {dialect : Dialect} {r : Reading} {c : Char} {w s : List Char} {ws : List (List Char)}
  {n : Nat}

/-- The characters that mean something in a pattern. -/
def marks : List Char := ['?', '*', '[', '\x7b', '\x7d', ',', '\\']

/-- A text in which no character means anything but itself. -/
def IsPlainText (w : List Char) : Prop := ∀ c ∈ w, c ∉ marks

instance IsPlainText.decidable (w : List Char) : Decidable (IsPlainText w) :=
  List.decidableBAll _ w

/-! ### Reading -/

/-- A character that is no mark is read as a literal. -/
theorem readFrom_plain (hc : c ∉ marks) : readFrom dialect (n + 1) r (c :: s) =
    readFrom dialect n { r.push (.literal c) with last := some c } s := by
  have hmarks : ∀ m ∈ marks, (c == m) = false := fun m hm => by
    rw [beq_eq_false_iff_ne]
    rintro rfl
    exact hc hm
  simp only [marks, List.forall_mem_cons] at hmarks
  obtain ⟨h1, h2, h3, h4, h5, h6, h7, -⟩ := hmarks
  conv_lhs => unfold readFrom
  simp only [h1, h2, h3, h4, h5, h6, h7, Bool.false_and, Bool.false_eq_true, if_false]
  rfl

/-- Plain text is read as literals. -/
theorem readFrom_plainText (dialect : Dialect) (hw : IsPlainText w) (r : Reading) :
    ∃ last, readFrom dialect (w.length + n) r (w ++ s) =
      readFrom dialect n { r with current := (literals w).reverse ++ r.current, last } s := by
  induction w generalizing r with
  | nil => exact ⟨r.last, by simp [literals]⟩
  | cons c w ih =>
    obtain ⟨hc, hw⟩ := List.forall_mem_cons.mp hw
    obtain ⟨last, hread⟩ := ih hw { r.push (.literal c) with last := some c }
    refine ⟨last, ?_⟩
    have hsteps : (c :: w).length + n = w.length + n + 1 := by
      rw [List.length_cons]
      omega
    rw [hsteps, List.cons_append, readFrom_plain hc, hread]
    simp [literals, Reading.push]

/-- Plain texts between braces, with a comma between each two, are read as branches of literals. -/
theorem readFrom_branches (dialect : Dialect) (hws : ∀ w ∈ ws, IsPlainText w) (hne : ws ≠ [])
    {current : List Token} {rows : List (List Token)}
    {outer : List (List Token × List (List Token))}
    (hcurrent : r.current = []) (houter : r.outer = (current, rows) :: outer) :
    ∃ last, readFrom dialect (([','].intercalate ws).length + 1 + n) r
        ([','].intercalate ws ++ '\x7d' :: s) =
      readFrom dialect n
        ⟨.branches (r.rows.reverse ++ ws.map literals) :: current, rows, outer, last⟩ s := by
  induction ws generalizing r with
  | nil => exact absurd rfl hne
  | cons w ws ih =>
    obtain ⟨hw, hws⟩ := List.forall_mem_cons.mp hws
    by_cases hlast : ws = []
    · -- behind the last text the brace is closed
      subst hlast
      rw [List.intercalate_singleton, Nat.add_assoc]
      obtain ⟨last, hread⟩ := readFrom_plainText dialect (n := 1 + n)
        (s := '\x7d' :: s) hw r
      refine ⟨some '\x7d', ?_⟩
      rw [hread, Nat.add_comm 1 n, hcurrent]
      conv_lhs => unfold readFrom
      simp [Reading.closeBrace?, houter, literals]
    · obtain ⟨last, hread⟩ := readFrom_plainText dialect
        (n := ([','].intercalate ws).length + 1 + n + 1)
        (s := ',' :: ([','].intercalate ws ++ '\x7d' :: s)) hw r
      -- behind the comma a new row begins
      obtain ⟨last', hrest⟩ := ih (r := ⟨[], literals w :: r.rows, r.outer, some ','⟩)
        hws hlast rfl houter
      refine ⟨last', ?_⟩
      rw [List.intercalate_cons_of_ne_nil hlast, List.append_assoc, List.append_assoc,
        List.singleton_append]
      have hsteps : (w ++ ',' :: [','].intercalate ws).length + 1 + n =
          w.length + (([','].intercalate ws).length + 1 + n + 1) := by
        rw [List.length_append, List.length_cons]
        omega
      rw [hsteps, List.cons_append, hread, hcurrent]
      conv_lhs => unfold readFrom
      simpa [Reading.nextRow, Reading.inBraces, houter] using hrest

/-- Any folders, a wildcard and a dot. -/
theorem readFrom_start : readFrom dialect (n + 3) .start ("**/*.".toList ++ s) =
    readFrom dialect n ⟨[.literal '.', .many, .foldersBefore], [], [], some '.'⟩ s := rfl

/-- The start of the pattern with several endings, up to the brace. -/
theorem readFrom_startBraces : readFrom dialect (n + 4) .start ("**/*.\x7b".toList ++ s) =
    readFrom dialect n
      ⟨[], [], [([.literal '.', .many, .foldersBefore], [])], some '\x7b'⟩ s := rfl

/-- The pattern with one ending is read as folders, a wildcard and literals. -/
theorem parse?_ending (hw : IsPlainText w) :
    Pattern.parse? dialect ("**/*.".toList ++ w) =
      some ⟨.foldersBefore :: .many :: literals ('.' :: w), dialect.bounded⟩ := by
  obtain ⟨last, hread⟩ := readFrom_plainText dialect (n := 2) (s := []) hw
    ⟨[.literal '.', .many, .foldersBefore], [], [], some '.'⟩
  rw [List.append_nil] at hread
  have hsteps : ("**/*.".toList ++ w).length = w.length + 2 + 3 := by
    rw [List.length_append, Nat.add_comm]
    rfl
  unfold Pattern.parse?
  rw [hsteps, readFrom_start, hread]
  simp [readFrom, Reading.inBraces, literals]

/-- The pattern with several endings is read with a branch for each of them. -/
theorem parse?_endings (hws : ∀ w ∈ ws, IsPlainText w) (hne : ws ≠ []) :
    Pattern.parse? dialect ("**/*.\x7b".toList ++ ([','].intercalate ws ++ ['\x7d'])) =
      some ⟨[.foldersBefore, .many, .literal '.', .branches (ws.map literals)],
        dialect.bounded⟩ := by
  obtain ⟨last, hread⟩ := readFrom_branches dialect (n := 2) (s := []) hws hne
    (r := ⟨[], [], [([.literal '.', .many, .foldersBefore], [])], some '\x7b'⟩) rfl rfl
  have hsteps : ("**/*.\x7b".toList ++ ([','].intercalate ws ++ ['\x7d'])).length =
      ([','].intercalate ws).length + 1 + 2 + 4 := by
    rw [List.length_append, List.length_append]
    show 6 + (_ + 1) = _
    omega
  unfold Pattern.parse?
  rw [hsteps, readFrom_startBraces, hread]
  simp [readFrom, Reading.inBraces]

/-! ### Matching -/

/-- A wildcard takes the folders as well. -/
theorem acceptsAll_anywhere {row : List Token} {k : List UInt8 → Bool} {bs : List UInt8} :
    acceptsAll false (.foldersBefore :: .many :: row) k bs = true ↔
      ∃ rest, rest <:+ bs ∧ acceptsAll false row k rest = true := by
  show Token.accepts false .foldersBefore (acceptsAll false (.many :: row) k) bs = true ↔ _
  rw [foldersBefore_accepts_iff]
  constructor
  · rintro (h | ⟨before, below, rfl, h⟩)
    · exact many_accepts_iff.mp h
    · obtain ⟨rest, hrest, hk⟩ := many_accepts_iff.mp h
      exact ⟨rest, hrest.trans ⟨before ++ [slash], by simp⟩, hk⟩
  · exact fun h => .inl (many_accepts_iff.mpr h)

/-- The pattern with one ending matches what ends with it. -/
theorem isMatch_ending_iff {path : String} :
    (⟨.foldersBefore :: .many :: literals w, false⟩ : Pattern).isMatch path = true ↔
      w <:+ path.toList := by
  show acceptsAll false (.foldersBefore :: .many :: literals w) List.isEmpty (bytesOf path) = true ↔
    _
  rw [acceptsAll_anywhere, bytesOf_eq, ← suffix_encode_iff]
  simp only [acceptsAll_literals_isEmpty, exists_eq_right]

/-- The pattern with several endings matches what ends with one of them. -/
theorem isMatch_endings_iff {path : String} (hws : ∀ w ∈ ws, w ≠ []) (hne : ws ≠ []) :
    (⟨[.foldersBefore, .many, .literal '.', .branches (ws.map literals)], false⟩ :
      Pattern).isMatch path = true ↔ ∃ w ∈ ws, '.' :: w <:+ path.toList := by
  show acceptsAll false (.foldersBefore :: .many :: literals ['.'] ++ [.branches (ws.map literals)])
    List.isEmpty (bytesOf path) = true ↔ _
  rw [List.cons_append, List.cons_append, acceptsAll_anywhere, bytesOf_eq]
  simp only [acceptsAll_literals]
  constructor
  · rintro ⟨_, hrest, rest, rfl, hk⟩
    obtain ⟨w, hw, rfl⟩ := (branches_accepts_iff hws hne).mp hk
    exact ⟨w, hw, suffix_encode_iff.mp (by rwa [← encode_append] at hrest)⟩
  · rintro ⟨w, hw, hsuffix⟩
    refine ⟨encode ('.' :: w), suffix_encode_iff.mpr hsuffix, encode w, rfl, ?_⟩
    exact (branches_accepts_iff hws hne).mpr ⟨w, hw, rfl⟩

end GuidedTour.Glob
