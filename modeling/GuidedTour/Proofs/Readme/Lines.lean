import GuidedTour.Proofs.Lines
import GuidedTour.Proofs.Trim
import GuidedTour.Tour.Readme
import Mathlib.Data.List.Destutter

namespace GuidedTour.Readme

open Text (joinWith lines trimEnd trimStart trim isBlank allBlank)

/-!
# The lines of a cleaned README

Cleaning picks lines by the nearest heading and by what they hold, and tidies the blank lines
between them.

* `nearestHeading?`, `IsKept`, `pick` — the lines that are kept, each judged by the whole text;
* `keptLines_eq_pick` — reading on from line to line keeps the same ones;
* `tidied` — lines without blanks at their ends, and with one blank line for each run of them;
* `tidyText`, `keptText_eq_tidyText` — what is kept, before it is cut, is the tidied lines that are
  picked;
* `IsClean` — lines as they stand in a cleaned README; a cut leaves them so (`IsClean.exists_cut`);
* `clean_keeps` — the README that comes out.
-/

variable {ls : List (List Char)}

/-! ### Which lines are kept -/

/-- The text of the nearest heading at the line with this index, or above it. -/
def nearestHeading? (ls : List (List Char)) (i : Nat) : Option (List Char) :=
  (ls.take (i + 1)).reverse.findSome? heading?

/-- A line that is kept: no sponsor section holds it, it is no badge and asks for no support. -/
structure IsKept (ls : List (List Char)) (i : Nat) (l : List Char) : Prop where
  outside : (nearestHeading? ls i).any isSponsorHeading = false
  badge : isBadge l = false
  promotional : isPromotional l = false

theorem isKept_iff {i : Nat} {l : List Char} : IsKept ls i l ↔
    (nearestHeading? ls i).any isSponsorHeading = false ∧ isBadge l = false ∧
      isPromotional l = false :=
  ⟨fun h => ⟨h.outside, h.badge, h.promotional⟩, fun ⟨h, h', h''⟩ => ⟨h, h', h''⟩⟩

instance (ls : List (List Char)) (i : Nat) (l : List Char) : Decidable (IsKept ls i l) :=
  decidable_of_iff _ isKept_iff.symm

/-- The lines that are kept, in their order. -/
def pick (ls : List (List Char)) : List (List Char) :=
  (ls.zipIdx.filter fun x => IsKept ls x.2 x.1).map Prod.fst

/-- Whether a line that follows these, and is no heading, stands in a sponsor section. -/
def sponsorBelow (above : List (List Char)) : Bool :=
  (above.reverse.findSome? heading?).any isSponsorHeading

/-- A line that is a heading decides about what is below it; any other changes nothing. -/
theorem sponsorBelow_concat (above : List (List Char)) (l : List Char) :
    sponsorBelow (above ++ [l]) = match heading? l with
      | some heading => isSponsorHeading heading
      | none => sponsorBelow above := by
  rw [sponsorBelow, List.reverse_append, List.reverse_singleton, List.singleton_append,
    List.findSome?_cons]
  cases heading? l <;> rfl

/-- The pass that leaves out the sections of sponsors, line by line. -/
theorem outsideSponsors_cons (above : List (List Char)) (l : List Char) (ls : List (List Char)) :
    outsideSponsors (sponsorBelow above) (l :: ls) =
      if sponsorBelow (above ++ [l]) then outsideSponsors (sponsorBelow (above ++ [l])) ls
      else l :: outsideSponsors (sponsorBelow (above ++ [l])) ls := by
  cases hheading : heading? l <;> simp only [sponsorBelow_concat, outsideSponsors, hheading]

/-- The nearest heading of a line is the last one up to the line itself. -/
theorem nearestHeading?_middle (above : List (List Char)) (l : List Char)
    (below : List (List Char)) :
    (nearestHeading? (above ++ l :: below) above.length).any isSponsorHeading =
      sponsorBelow (above ++ [l]) := by
  have htake : (above ++ l :: below).take (above.length + 1) = above ++ [l] := by
    simp [List.take_append]
  rw [nearestHeading?, htake, sponsorBelow]

/-- Reading on below some lines keeps what the nearest heading of the whole text lets stand. -/
theorem outsideSponsors_eq (above ls : List (List Char)) :
    outsideSponsors (sponsorBelow above) ls = ((ls.zipIdx above.length).filter fun x =>
      !(nearestHeading? (above ++ ls) x.2).any isSponsorHeading).map Prod.fst := by
  induction ls generalizing above with
  | nil => rfl
  | cons l ls ih =>
    have hrest := ih (above ++ [l])
    rw [List.append_assoc, List.singleton_append, List.length_append, List.length_singleton]
      at hrest
    rw [outsideSponsors_cons, hrest, List.zipIdx_cons, List.filter_cons, nearestHeading?_middle]
    cases sponsorBelow (above ++ [l]) <;> rfl

/-- The lines that are kept are those that each, judged by the whole text, are to be kept. -/
theorem keptLines_eq_pick (s : List Char) : keptLines s = pick (lines s) := by
  have houtside := outsideSponsors_eq [] (lines s)
  rw [keptLines, pick, show outsideSponsors false (lines s) = _ from houtside, List.filter_map,
    List.filter_filter]
  congr 1
  refine List.filter_congr fun x _ => ?_
  rw [Bool.eq_iff_iff, decide_eq_true_iff, isKept_iff]
  simp only [Function.comp_apply, Bool.and_eq_true, Bool.not_eq_true', List.nil_append]
  tauto

/-! ### Blank lines -/

/-- Two lines that are not both blank. -/
def Apart (l m : List Char) : Prop := ¬(allBlank l = true ∧ allBlank m = true)

instance : DecidableRel Apart := fun l m =>
  inferInstanceAs (Decidable ¬(allBlank l = true ∧ allBlank m = true))

/-- The lines without blanks at their ends, one blank line for each run of them, and none at either
end. -/
def tidied (ls : List (List Char)) : List (List Char) :=
  (((ls.map trimEnd).destutter Apart).dropWhile allBlank).rdropWhile allBlank

/-- A line is blank with its last blanks or without them. -/
theorem allBlank_trimEnd (l : List Char) : allBlank (trimEnd l) = allBlank l := by
  rw [Bool.eq_iff_iff, ← Text.trimEnd_eq_nil_iff, ← Text.trimEnd_eq_nil_iff,
    Text.trimEnd_eq_self (Text.getLast?_trimEnd l)]

/-- Behind a given line, the pass over the lines leaves out a blank line after a blank one. -/
theorem destutter'_map_trimEnd (l : List Char) (ls : List (List Char)) :
    (ls.map trimEnd).destutter' Apart (trimEnd l) =
      trimEnd l :: collapseBlank (allBlank l) ls := by
  induction ls generalizing l with
  | nil => rfl
  | cons m ls ih =>
    rw [List.map_cons, List.destutter'_cons, ih, collapseBlank]
    by_cases h : Apart (trimEnd l) (trimEnd m)
    · rw [if_pos h, if_neg (by simpa [Apart, allBlank_trimEnd, and_comm] using h)]
    · obtain ⟨hl, hm⟩ : allBlank l = true ∧ allBlank m = true := by
        simpa [Apart, allBlank_trimEnd] using h
      rw [if_neg h, if_pos (by simp [hl, hm]), ih, hl]

/-- Where a blank line would be dropped, the first line is not blank. -/
theorem dropWhile_collapseBlank (ls : List (List Char)) :
    (collapseBlank true ls).dropWhile allBlank = collapseBlank true ls := by
  induction ls with
  | nil => rfl
  | cons l ls ih =>
    rw [collapseBlank]
    split
    · exact ih
    · next h =>
      rw [List.dropWhile_cons_of_neg (by simpa [allBlank_trimEnd] using h)]

/-- The pass that leaves out blank lines at the start and repeated ones, by its result. -/
theorem collapseBlank_eq (ls : List (List Char)) :
    collapseBlank true ls = ((ls.map trimEnd).destutter Apart).dropWhile allBlank := by
  cases ls with
  | nil => rfl
  | cons l ls =>
    rw [List.map_cons, List.destutter_cons', destutter'_map_trimEnd, collapseBlank]
    by_cases h : allBlank l = true
    · rw [List.dropWhile_cons_of_pos (by rwa [allBlank_trimEnd]), if_pos (by simp [h]), h,
        dropWhile_collapseBlank]
    · rw [List.dropWhile_cons_of_neg (by rwa [allBlank_trimEnd]), if_neg (by simp [h])]

/-- Tidied lines are what this pass leaves, less the blank lines at the end. -/
theorem tidied_eq (ls : List (List Char)) :
    tidied ls = (collapseBlank true ls).rdropWhile allBlank := by
  rw [tidied, collapseBlank_eq]

/-- Each tidied line is a given one without the blanks at its end. -/
theorem exists_of_mem_tidied {l : List Char} (hl : l ∈ tidied ls) : ∃ m ∈ ls, trimEnd m = l := by
  have hstart : tidied ls <+: ((ls.map trimEnd).destutter Apart).dropWhile allBlank :=
    List.rdropWhile_prefix allBlank _
  have hmem := (List.dropWhile_suffix allBlank).subset (hstart.subset hl)
  exact List.mem_map.mp ((List.destutter_sublist Apart _).subset hmem)

/-- A line that is not blank is not empty. -/
theorem ne_nil_of_allBlank {l : List Char} (h : allBlank l = false) : l ≠ [] := by
  rintro rfl
  cases h

/-! ### Tidy lines -/

/-- Lines that no blanks follow, of which no two in a row are blank, and neither the first nor the
last one. -/
structure IsTidy (ls : List (List Char)) : Prop where
  feed : ∀ l ∈ ls, '\n' ∉ l
  solidEnd : ∀ l ∈ ls, ∀ c ∈ l.getLast?, isBlank c = false
  apart : ls.IsChain Apart
  first : ∀ l ∈ ls.head?, allBlank l = false
  last : ∀ l ∈ ls.getLast?, allBlank l = false

/-- Tidied lines are tidy. -/
theorem isTidy_tidied (h : ∀ l ∈ ls, '\n' ∉ l) : IsTidy (tidied ls) := by
  have hstart : tidied ls <+: ((ls.map trimEnd).destutter Apart).dropWhile allBlank :=
    List.rdropWhile_prefix allBlank _
  -- The lines are a part of what is left without repeated blank lines, so nothing in it repeats.
  have hpart : tidied ls <:+: (ls.map trimEnd).destutter Apart :=
    hstart.isInfix.trans (List.dropWhile_suffix allBlank).isInfix
  have happart : (tidied ls).IsChain Apart :=
    List.IsChain.infix (List.isChain_destutter Apart _) hpart
  refine ⟨fun l hl => ?_, fun l hl => ?_, happart, fun l hl => ?_, fun l hl => ?_⟩
  · obtain ⟨m, hm, rfl⟩ := exists_of_mem_tidied hl
    exact fun hfeed => h m hm ((Text.trimEnd_isPrefix m).subset hfeed)
  · obtain ⟨m, hm, rfl⟩ := exists_of_mem_tidied hl
    exact Text.getLast?_trimEnd m
  · obtain ⟨rest, hrest⟩ := hstart
    have hhead : (tidied ls ++ rest).head? = some l := by
      rw [List.head?_append, Option.mem_def.mp hl, Option.some_or]
    exact Text.head?_dropWhile_eq_false l (hrest ▸ hhead)
  · exact Text.getLast?_rdropWhile_eq_false l hl

/-- Lines as they stand in a cleaned README: tidy ones, and no blanks before the first one. -/
structure IsClean (ls : List (List Char)) : Prop extends IsTidy ls where
  solidStart : ∀ l ∈ ls.head?, ∀ c ∈ l.head?, isBlank c = false

theorem allBlank_trimStart (l : List Char) : allBlank (trimStart l) = allBlank l := by
  have hblanks : (l.takeWhile isBlank).all isBlank = true :=
    List.all_eq_true.mpr fun c => List.mem_takeWhile_imp
  rw [allBlank, allBlank, ← List.takeWhile_append_dropWhile (p := isBlank) (l := l),
    List.all_append, hblanks, Bool.true_and, trimStart, List.takeWhile_append_dropWhile]

/-- Tidy lines are clean once the first one is trimmed at its start. -/
theorem IsTidy.isClean_modifyHead (h : IsTidy ls) : IsClean (ls.modifyHead trimStart) := by
  cases ls with
  | nil => exact ⟨h, by simp⟩
  | cons l ls =>
    have hfirst : allBlank (trimStart l) = false := by
      rw [allBlank_trimStart]
      exact h.first l rfl
    have hsuffix : trimStart l <:+ l := List.dropWhile_suffix isBlank
    -- Only the first line changes, and it is not blank before or after.
    refine ⟨⟨?_, ?_, ?_, ?_, ?_⟩, ?_⟩
    · exact List.forall_mem_cons.mpr ⟨fun hfeed => h.feed l List.mem_cons_self
        (hsuffix.subset hfeed), fun m hm => h.feed m (List.mem_cons_of_mem l hm)⟩
    · refine List.forall_mem_cons.mpr ⟨fun c hc => h.solidEnd l List.mem_cons_self c ?_,
        fun m hm => h.solidEnd m (List.mem_cons_of_mem l hm)⟩
      obtain ⟨blanks, hblanks⟩ := hsuffix
      rw [← hblanks, List.getLast?_append, Option.mem_def.mp hc, Option.some_or]
      rfl
    · have happart := List.isChain_cons.mp h.apart
      exact List.isChain_cons.mpr ⟨fun m _ hblank => by simp [hfirst] at hblank, happart.2⟩
    · exact fun _ hl => Option.some.inj hl ▸ hfirst
    · cases ls with
      | nil => exact fun _ hl => Option.some.inj hl ▸ hfirst
      | cons m ls => exact h.last
    · exact fun _ hl => Option.some.inj hl ▸ Text.head?_dropWhile_eq_false

/-- The text of clean lines neither begins nor ends with a blank. -/
theorem IsClean.isTrimmed (h : IsClean ls) : Text.IsTrimmed (joinWith ['\n'] ls) where
  first := by
    cases ls with
    | nil => simp [joinWith]
    -- The text begins with the first line, which is not empty.
    | cons l ls =>
      obtain ⟨c, l, rfl⟩ := List.exists_cons_of_ne_nil (ne_nil_of_allBlank (h.first l rfl))
      have hhead : (joinWith ['\n'] ((c :: l) :: ls)).head? = some c := by
        cases ls <;> rfl
      rw [hhead]
      exact h.solidStart (c :: l) rfl
  last := by
    rcases List.eq_nil_or_concat ls with rfl | ⟨above, l, rfl⟩
    · simp [joinWith]
    · -- The text ends with the last line, which is not empty either.
      obtain ⟨before, hjoin⟩ := Text.suffix_joinWith_concat ['\n'] l above
      have hl : l ≠ [] := ne_nil_of_allBlank (h.last l (by simp))
      rw [List.concat_eq_append, ← hjoin, List.getLast?_append_of_ne_nil _ hl]
      exact h.solidEnd l (by simp)

/-- Clean lines come back when they are joined and taken apart. -/
theorem IsClean.areLines (h : IsClean ls) : Text.AreLines ls where
  feed := h.feed
  unreturned := fun l hl hreturn => absurd (h.solidEnd l hl _ hreturn) (by decide)
  last := fun l hl => ne_nil_of_allBlank (h.last l hl)

/-! ### What is kept -/

/-- Empty lines at the end are line feeds at the end. -/
theorem joinWith_append_blank (hls : ls ≠ []) (n : Nat) :
    joinWith ['\n'] (ls ++ List.replicate n []) = joinWith ['\n'] ls ++ List.replicate n '\n' := by
  induction n generalizing ls with
  | zero => simp
  | succ n ih =>
    rw [List.replicate_succ, List.append_cons, ih (by simp), Text.joinWith_concat _ _ hls,
      List.append_nil, List.append_assoc, List.singleton_append, ← List.replicate_succ]

/-- Trimming the joined text of tidy lines trims the start of the first one, and takes empty lines
off the end. -/
theorem trim_joinWith_of_isTidy (h : IsTidy ls) (n : Nat) :
    trim (joinWith ['\n'] (ls ++ List.replicate n [])) =
      joinWith ['\n'] (ls.modifyHead trimStart) := by
  have hfeeds (k : Nat) : ∀ c ∈ List.replicate k '\n', isBlank c = true := fun c hc =>
    List.eq_of_mem_replicate hc ▸ rfl
  cases ls with
  | nil =>
    cases n with
    | zero => rfl
    | succ n =>
      have hjoin := joinWith_append_blank (List.cons_ne_nil [] []) n
      have htrim : trim ([] ++ [] ++ List.replicate n '\n') = [] :=
        Text.trim_between (by simp) ⟨by simp, by simp⟩ (hfeeds n)
      exact (congrArg trim hjoin).trans htrim
  | cons l ls =>
    -- The blanks of the first line stand at the start of the text.
    have hsplit : l = l.takeWhile isBlank ++ trimStart l :=
      (List.takeWhile_append_dropWhile).symm
    have hjoin : joinWith ['\n'] (l :: ls) =
        l.takeWhile isBlank ++ joinWith ['\n'] (trimStart l :: ls) := by
      rw [← Text.joinWith_append_head, ← hsplit]
    rw [joinWith_append_blank (by simp), hjoin]
    exact Text.trim_between (fun c => List.mem_takeWhile_imp) h.isClean_modifyHead.isTrimmed
      (hfeeds n)

/-- What is tidied away at the end is empty lines. -/
theorem exists_tidied (ls : List (List Char)) :
    ∃ n, collapseBlank true ls = tidied ls ++ List.replicate n [] := by
  have hsplit : tidied ls ++ (collapseBlank true ls).rtakeWhile allBlank =
      collapseBlank true ls := by
    rw [tidied_eq]
    exact List.rdropWhile_append_rtakeWhile
  refine ⟨((collapseBlank true ls).rtakeWhile allBlank).length, ?_⟩
  rw [← List.eq_replicate_of_mem fun l hl => ?_, hsplit]
  -- A blank line that was trimmed is empty.
  have hmem : l ∈ (ls.map trimEnd).destutter Apart := by
    rw [collapseBlank_eq] at hl
    exact (List.dropWhile_suffix allBlank).subset ((List.rtakeWhile_suffix allBlank _).subset hl)
  obtain ⟨m, -, rfl⟩ := List.mem_map.mp ((List.destutter_sublist Apart _).subset hmem)
  rw [Text.trimEnd_eq_nil_iff, ← allBlank_trimEnd]
  exact List.mem_rtakeWhile_imp hl

/-- The lines that are kept have no line feed. -/
theorem newline_notMem_of_mem_pick {l : List Char} {s : List Char} (hl : l ∈ pick (lines s)) :
    '\n' ∉ l := by
  obtain ⟨x, hx, rfl⟩ := List.mem_map.mp hl
  exact Text.newline_notMem_of_mem_lines (List.fst_mem_of_mem_zipIdx (List.mem_filter.mp hx).1)

/-- The lines that are picked, tidied, as one text that begins with no blank. -/
def tidyText (s : List Char) : List Char :=
  joinWith ['\n'] ((tidied (pick (lines s))).modifyHead trimStart)

/-- What is kept, before it is cut. -/
theorem keptText_eq_tidyText (s : List Char) : keptText s = tidyText s := by
  obtain ⟨n, hn⟩ := exists_tidied (pick (lines s))
  rw [keptText, keptLines_eq_pick, hn]
  exact trim_joinWith_of_isTidy (isTidy_tidied fun _ => newline_notMem_of_mem_pick) n

/-! ### The cut -/

/-- The first of some clean lines, and what one more begins with, are clean lines. -/
theorem IsClean.ofStart {above below : List (List Char)} {l start : List Char}
    (h : IsClean (above ++ l :: below)) (hstart : start <+: l) (hne : start ≠ [])
    (hend : ∀ c ∈ start.getLast?, isBlank c = false) : IsClean (above ++ [start]) := by
  have hblank : allBlank start = false := by
    rw [Bool.eq_false_iff, Ne, ← Text.trimEnd_eq_nil_iff, Text.trimEnd_eq_self hend]
    exact hne
  have hmem (m : List Char) (hm : m ∈ above ++ [start]) : m ∈ above ∨ m = start := by
    simpa using hm
  -- The lines above stay, so each part is to be shown of the last line alone, or of the first if
  -- there are none above.
  refine ⟨⟨fun m hm => ?_, fun m hm => ?_, ?_, ?_, fun m hm => ?_⟩, ?_⟩
  · rcases hmem m hm with hm | rfl
    · exact h.feed m (List.mem_append_left _ hm)
    · exact fun hfeed => h.feed l (by simp) (hstart.subset hfeed)
  · rcases hmem m hm with hm | rfl
    · exact h.solidEnd m (List.mem_append_left _ hm)
    · exact hend
  · refine List.isChain_append.mpr ⟨(List.isChain_append.mp h.apart).1, .singleton start, ?_⟩
    rintro m - k hk ⟨-, hk'⟩
    rw [List.head?_singleton, Option.mem_some_iff] at hk
    rw [← hk, hblank] at hk'
    exact absurd hk' (by decide)
  · cases above with
    | nil => exact fun _ hm => Option.some.inj hm ▸ hblank
    | cons m above => exact h.first
  · rw [List.getLast?_concat] at hm
    exact Option.some.inj hm ▸ hblank
  · cases above with
    | nil =>
      intro m hm c hc
      obtain rfl := Option.some.inj hm
      obtain ⟨rest, rfl⟩ := hstart
      exact h.solidStart _ rfl c (by rw [List.head?_append, Option.mem_def.mp hc]; rfl)
    | cons m above => exact h.solidStart

/-- A text of clean lines, cut anywhere, is again one, of lines that were there or begin one. -/
theorem IsClean.exists_cut (h : IsClean ls) (n : Nat) :
    ∃ cut, IsClean cut ∧ trimEnd ((joinWith ['\n'] ls).take n) = joinWith ['\n'] cut ∧
      ∀ m ∈ cut, ∃ l ∈ ls, m <+: l := by
  by_cases hnil : trimEnd ((joinWith ['\n'] ls).take n) = []
  · exact ⟨[], ⟨⟨by simp, by simp, .nil, by simp, by simp⟩, by simp⟩, hnil, by simp⟩
  have hls : ls ≠ [] := by
    rintro rfl
    exact hnil (by simp [joinWith, trimEnd])
  obtain ⟨above, l, below, start, rfl, hstart, htext⟩ := Text.exists_of_prefix_joinWith hls
    ((Text.trimEnd_isPrefix _).trans (List.take_prefix n _))
  have hsolid := Text.getLast?_trimEnd ((joinWith ['\n'] (above ++ l :: below)).take n)
  rw [htext] at hnil hsolid
  -- The line that is cut is not empty: no line feed ends the text.
  have hne : start ≠ [] := by
    rintro rfl
    by_cases habove : above = []
    · exact hnil (by rw [habove]; rfl)
    · rw [Text.joinWith_concat _ _ habove] at hsolid
      exact absurd (hsolid '\n' (by simp)) (by decide)
  have hend : ∀ c ∈ start.getLast?, isBlank c = false := by
    obtain ⟨before, hbefore⟩ := Text.suffix_joinWith_concat ['\n'] start above
    rwa [← hbefore, List.getLast?_append_of_ne_nil _ hne] at hsolid
  refine ⟨above ++ [start], h.ofStart hstart hne hend, htext, fun m hm => ?_⟩
  rcases List.mem_append.mp hm with hm | hm
  · exact ⟨m, List.mem_append_left _ hm, List.prefix_rfl⟩
  · exact ⟨l, by simp, List.mem_singleton.mp hm ▸ hstart⟩

/-- The lines that are kept, tidied, are clean. -/
theorem isClean_kept (s : List Char) :
    IsClean ((tidied (pick (lines s))).modifyHead trimStart) :=
  (isTidy_tidied fun _ => newline_notMem_of_mem_pick).isClean_modifyHead

/-- What is cleaned is clean lines, each of them a line of what is kept or the start of one. -/
theorem exists_clean_eq (s : List Char) : ∃ ls, IsClean ls ∧ clean s = joinWith ['\n'] ls ∧
    ∀ l ∈ ls, ∃ m ∈ (tidied (pick (lines s))).modifyHead trimStart, l <+: m := by
  have hkept := isClean_kept s
  rw [clean, keptText_eq_tidyText]
  split
  · exact ⟨_, hkept, rfl, fun l hl => ⟨l, hl, List.prefix_rfl⟩⟩
  · exact hkept.exists_cut maxChars

/-- A cleaned text has no more than the greatest number of characters. -/
theorem length_clean_le (s : List Char) : (clean s).length ≤ maxChars := by
  rw [clean]
  split
  · assumption
  · exact (Text.trimEnd_isPrefix _).length_le.trans (List.length_take_le _ _)

/-- **The lines of a cleaned README.** They are the lines whose nearest heading does not speak of
sponsors, less badges and promotional lines, without blanks at their ends and with one blank line
for each run of them, without the blanks at both ends of the text, cut where they are too long. So
the README is no longer than that, no two of its lines in a row are blank, and no blank stands at
either end. -/
theorem clean_keeps (s : List Char) :
    clean s = (if (tidyText s).length ≤ 4000 then tidyText s
        else trimEnd ((tidyText s).take 4000)) ∧
      (clean s).length ≤ 4000 ∧ (lines (clean s)).IsChain Apart ∧ Text.IsTrimmed (clean s) := by
  have hclean : clean s =
      if (tidyText s).length ≤ 4000 then tidyText s else trimEnd ((tidyText s).take 4000) := by
    rw [clean, keptText_eq_tidyText]
    rfl
  obtain ⟨ls, hls, heq, -⟩ := exists_clean_eq s
  refine ⟨hclean, length_clean_le s, ?_, ?_⟩
  · rw [heq, Text.lines_joinWith hls.areLines]
    exact hls.apart
  · rw [heq]
    exact hls.isTrimmed

example : clean "# A\n\n\n![](badge)\nB \n## Thanks\nto all\n# C\n".toList =
    "# A\n\nB\n# C".toList := by decide +kernel

end GuidedTour.Readme
