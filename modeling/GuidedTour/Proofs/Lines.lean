import GuidedTour.Text.Basic
import Mathlib.Data.List.Infix

namespace GuidedTour.Text

/-!
# Lines and the text that they make

Lines with a line feed between each two make a text, and that text has just these lines, as long as
none of them looks different after that.

* `AreLines` — rows of characters that can be the lines of a text;
* `lines_joinWith` — they are the lines of what they make together;
* `exists_of_prefix_joinWith` — the start of a text is some of its lines and the start of one more.
-/

variable {l t : List Char} {ls : List (List Char)}

/-! ### Reading lines -/

/-- Characters without a line feed are put on the line that is open. -/
theorem linesFrom_append (hl : '\n' ∉ l) (line rest : List Char) :
    linesFrom line (l ++ rest) = linesFrom (l.reverse ++ line) rest := by
  induction l generalizing line with
  | nil => rfl
  | cons c l ih =>
    obtain ⟨hc, hl⟩ : '\n' ≠ c ∧ '\n' ∉ l := by simpa using hl
    rw [List.cons_append, linesFrom, if_neg (by simpa using hc.symm), ih hl]
    simp

/-- A text without a line feed is one line. -/
theorem lines_of_notMem (hl : '\n' ∉ l) (hne : l ≠ []) : lines l = [l] := by
  have hread := linesFrom_append hl [] []
  rw [List.append_nil, List.append_nil] at hread
  rw [lines, hread, linesFrom, if_neg (by simpa using hne), List.reverse_reverse]

/-- A line that does not end in a carriage return is closed as it is. -/
theorem closeLine_reverse (h : l.getLast? ≠ some '\r') : closeLine l.reverse = l := by
  have hhead : l.reverse.head? ≠ some '\r' := by rwa [List.head?_reverse]
  rw [closeLine.eq_def]
  split
  · next line heq => exact absurd (by rw [heq]; rfl) hhead
  · exact List.reverse_reverse l

/-- A line up to its line feed comes first, and then the lines of the rest. -/
theorem lines_append_feed (hl : '\n' ∉ l) (hreturn : l.getLast? ≠ some '\r') (rest : List Char) :
    lines (l ++ '\n' :: rest) = l :: lines rest := by
  rw [lines, linesFrom_append hl, List.append_nil, linesFrom, if_pos (by rfl),
    closeLine_reverse hreturn, lines]

/-- Closing a line puts no line feed in. -/
theorem newline_notMem_closeLine (hl : '\n' ∉ l) : '\n' ∉ closeLine l := by
  rw [closeLine.eq_def]
  split <;> simp_all

/-- No line has a line feed. -/
theorem newline_notMem_of_mem_linesFrom {line s : List Char} (hline : '\n' ∉ line) :
    ∀ l ∈ linesFrom line s, '\n' ∉ l := by
  induction s generalizing line with
  | nil =>
    rw [linesFrom]
    split
    · exact fun _ hmem => absurd hmem List.not_mem_nil
    · simpa using hline
  | cons c s ih =>
    rw [linesFrom]
    split
    · exact List.forall_mem_cons.mpr
        ⟨newline_notMem_closeLine hline, ih List.not_mem_nil⟩
    · next hc => exact ih (List.not_mem_cons_of_ne_of_not_mem (fun h => hc (by simp [← h])) hline)

/-- No line of a text holds a line feed. -/
theorem newline_notMem_of_mem_lines {s : List Char} (hl : l ∈ lines s) : '\n' ∉ l :=
  newline_notMem_of_mem_linesFrom List.not_mem_nil l hl

/-- The first line of a text goes up to the first line feed, or to the end. It may lack the carriage
return there. -/
theorem exists_head?_lines (s : List Char) : ∃ ending, (ending = [] ∨ ending = ['\r']) ∧
    s.takeWhile (· != '\n') = (lines s).head?.getD s ++ ending := by
  have hl : '\n' ∉ s.takeWhile (· != '\n') := fun hmem => by
    simpa using List.all_eq_true.mp List.all_takeWhile '\n' hmem
  have hsplit : s.takeWhile (· != '\n') ++ s.dropWhile (· != '\n') = s :=
    List.takeWhile_append_dropWhile
  -- Without a line feed the text is its only line; otherwise the line ends at the first one.
  cases hrest : s.dropWhile (· != '\n') with
  | nil =>
    rw [hrest, List.append_nil] at hsplit
    refine ⟨[], .inl rfl, ?_⟩
    rw [hsplit] at hl ⊢
    by_cases hne : s = []
    · subst hne
      rfl
    · rw [lines_of_notMem hl hne]
      simp
  | cons c rest =>
    have hc : c = '\n' := by
      have hfirst := List.head?_dropWhile_not (· != '\n') s
      rw [hrest] at hfirst
      simpa using hfirst
    subst hc
    have hlines : lines s = closeLine (s.takeWhile (· != '\n')).reverse :: linesFrom [] rest := by
      conv_lhs => rw [← hsplit, hrest]
      rw [lines, linesFrom_append hl, List.append_nil, linesFrom, if_pos (by rfl)]
    -- The carriage return in front of the line feed is no part of the line.
    rw [hlines, List.head?_cons, Option.getD_some, closeLine.eq_def]
    split
    · next line hline =>
      exact ⟨['\r'], .inr rfl, by rw [← List.reverse_cons, ← hline, List.reverse_reverse]⟩
    · exact ⟨[], .inl rfl, by simp⟩

/-! ### Joining lines -/

theorem joinWith_cons (separator l : List Char) (hls : ls ≠ []) :
    joinWith separator (l :: ls) = l ++ separator ++ joinWith separator ls := by
  cases ls with
  | nil => exact absurd rfl hls
  | cons m ls => rfl

/-- What stands in front of the first text stands in front of all. -/
theorem joinWith_append_head (separator a l : List Char) (ls : List (List Char)) :
    joinWith separator ((a ++ l) :: ls) = a ++ joinWith separator (l :: ls) := by
  cases ls with
  | nil => rfl
  | cons m ls => simp [joinWith]

/-- The last of several texts is joined with a separator before it. -/
theorem joinWith_concat (separator l : List Char) (hls : ls ≠ []) :
    joinWith separator (ls ++ [l]) = joinWith separator ls ++ separator ++ l := by
  induction ls with
  | nil => exact absurd rfl hls
  | cons m ls ih =>
    rw [List.cons_append, joinWith_cons _ _ (by simp)]
    by_cases hrest : ls = []
    · rw [hrest]
      rfl
    · rw [ih hrest, joinWith_cons _ _ hrest]
      simp

/-- The joined text ends with the last one. -/
theorem suffix_joinWith_concat (separator l : List Char) (ls : List (List Char)) :
    l <:+ joinWith separator (ls ++ [l]) := by
  by_cases hls : ls = []
  · rw [hls]
    exact List.suffix_rfl
  · rw [joinWith_concat _ _ hls]
    exact List.suffix_append _ l

/-- Rows of characters that can be the lines of a text. -/
structure AreLines (ls : List (List Char)) : Prop where
  feed : ∀ l ∈ ls, '\n' ∉ l
  unreturned : ∀ l ∈ ls, l.getLast? ≠ some '\r'
  last : ∀ l ∈ ls.getLast?, l ≠ []

/-- Lines are the lines of the text that they make. -/
theorem lines_joinWith (h : AreLines ls) : lines (joinWith ['\n'] ls) = ls := by
  induction ls with
  | nil => rfl
  | cons l ls ih =>
    have hl := h.feed l List.mem_cons_self
    by_cases hls : ls = []
    · subst hls
      exact lines_of_notMem hl (h.last l rfl)
    · -- The other lines are lines as well, so the induction applies behind the first line feed.
      have hrest : AreLines ls :=
        ⟨fun m hm => h.feed m (List.mem_cons_of_mem _ hm),
          fun m hm => h.unreturned m (List.mem_cons_of_mem _ hm),
          fun m hm => h.last m (by simp [List.getLast?_cons, Option.mem_def.mp hm])⟩
      rw [joinWith_cons _ _ hls, List.append_assoc, List.singleton_append,
        lines_append_feed hl (h.unreturned l List.mem_cons_self), ih hrest]

/-- The start of a text is some of its lines and the start of one more. -/
theorem exists_of_prefix_joinWith (hls : ls ≠ []) (h : t <+: joinWith ['\n'] ls) :
    ∃ above l below start, ls = above ++ l :: below ∧ start <+: l ∧
      t = joinWith ['\n'] (above ++ [start]) := by
  induction ls generalizing t with
  | nil => exact absurd rfl hls
  | cons l ls ih =>
    by_cases hrest : ls = []
    · subst hrest
      exact ⟨[], l, [], t, rfl, h, rfl⟩
    · rw [joinWith_cons _ _ hrest, List.append_assoc] at h
      -- Either the text ends within the first line, or it goes on behind the line feed.
      rcases List.prefix_or_prefix_of_prefix h (List.prefix_append l _) with hwithin | ⟨t', rfl⟩
      · exact ⟨[], l, ls, t, rfl, hwithin, rfl⟩
      · rw [List.prefix_append_right_inj] at h
        rcases List.prefix_cons_iff.mp h with rfl | ⟨t, rfl, ht⟩
        · exact ⟨[], l, ls, l, rfl, List.prefix_rfl, List.append_nil l⟩
        · obtain ⟨above, m, below, start, rfl, hstart, rfl⟩ := ih hrest ht
          refine ⟨l :: above, m, below, start, rfl, hstart, ?_⟩
          rw [List.cons_append, joinWith_cons _ _ (by simp), List.append_assoc]
          rfl

end GuidedTour.Text
