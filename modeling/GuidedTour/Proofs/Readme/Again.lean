import GuidedTour.Proofs.LowerCase
import GuidedTour.Proofs.Readme.Lines
import GuidedTour.Proofs.Welcome

namespace GuidedTour.Readme

open Text (joinWith lines trimEnd trimStart trim isBlank allBlank lower IsSigmaFree)

/-!
# Cleaning a README twice

A cleaned README stays as it is when it is cleaned again. Its lines are lines that were kept, some
of which lost blanks or were cut, and no line begins to open a sponsor section, to be a badge or to
ask for support by that.

* `IsHarmless` — a line that is kept unless a sponsor section holds it;
* `IsHarmless.of_part` — it stays so when it is cut;
* `clean_joinWith` — clean lines without harm are cleaned to themselves;
* `clean_clean` — so what is clean stays as it is.
-/

variable {l m s t : List Char} {ls : List (List Char)}

/-! ### Words in parts of a line -/

theorem hasAny_iff {words : List String} :
    hasAny words s = true ↔ ∃ word ∈ words, word.toList <:+: s := by
  simp [hasAny, Text.contains_iff_infix]

theorem startsWith_iff {word : String} : startsWith word s = true ↔ word.toList <+: s :=
  List.isPrefixOf_iff_prefix

/-- What has a word in a part of it has the word. -/
theorem hasAny_mono {words : List String} (hwords : ∀ word ∈ words, IsSigmaFree word.toList)
    (hpart : s <:+: t) (h : hasAny words (lower s) = true) : hasAny words (lower t) = true := by
  obtain ⟨word, hmem, hword⟩ := hasAny_iff.mp h
  exact hasAny_iff.mpr ⟨word, hmem, (hwords word hmem).infix_lower_mono hpart hword⟩

/-- What starts with something that starts with a word starts with the word. -/
theorem startsWith_mono {word : String} (hword : IsSigmaFree word.toList) (hstart : s <+: t)
    (h : startsWith word (lower s) = true) : startsWith word (lower t) = true :=
  startsWith_iff.mpr (hword.prefix_lower_mono hstart (startsWith_iff.mp h))

/-- A line is promotional if a part of it is. -/
theorem isPromotional_mono (hpart : s <:+: t) (h : isPromotional s = true) :
    isPromotional t = true :=
  hasAny_mono (by decide) hpart h

/-- A heading is one of sponsors if a part of it is. -/
theorem isSponsorHeading_mono (hpart : s <:+: t) (h : isSponsorHeading s = true) :
    isSponsorHeading t = true :=
  hasAny_mono (by decide) hpart h

/-! ### Badges -/

/-- A badge is an image with a link, or an image from one of the hosts of badges. -/
theorem isBadge_iff : isBadge l = true ↔ trim l ≠ [] ∧ (startsWith "[![" (trim l) = true ∨
    (startsWith "![" (lower (trim l)) = true ∨ startsWith "<img" (lower (trim l)) = true ∨
      startsWith "<a " (lower (trim l)) = true ∧
        "<img".toList <:+: lower (trim l)) ∧ hasAny badgeHosts (lower (trim l)) = true) := by
  rw [isBadge]
  split
  · next h => simp [List.isEmpty_iff.mp h]
  · next h =>
    split
    · next hlink => simp_all
    · next hlink => simp_all [Text.contains_iff_infix, or_assoc]

/-- A line is a badge if its start is. -/
theorem isBadge_mono (hstart : trimStart l <+: trimStart m) (h : isBadge l = true) :
    isBadge m = true := by
  -- The start of a line may end in blanks, which are trimmed off. What is left is still a start.
  have htrim : trim l <+: trim m := Text.trim_mono hstart
  obtain ⟨hne, hbadge⟩ := isBadge_iff.mp h
  refine isBadge_iff.mpr ⟨fun hnil => hne (List.prefix_nil.mp (hnil ▸ htrim)), ?_⟩
  rcases hbadge with hlink | ⟨himage, hhost⟩
  · exact .inl (startsWith_iff.mpr ((startsWith_iff.mp hlink).trans htrim))
  · refine .inr ⟨?_, hasAny_mono (by decide) htrim.isInfix hhost⟩
    rcases himage with himage | himage | ⟨hanchor, himage⟩
    · exact .inl (startsWith_mono (by decide) htrim himage)
    · exact .inr (.inl (startsWith_mono (by decide) htrim himage))
    · have hsigma : IsSigmaFree "<img".toList := by decide
      exact .inr (.inr ⟨startsWith_mono (by decide) htrim hanchor,
        hsigma.infix_lower_mono htrim.isInfix himage⟩)

/-! ### Headings -/

/-- A heading: one to six number signs, then nothing or a space. -/
theorem heading?_eq_some_iff {text : List Char} : heading? l = some text ↔
    ∃ n rest, (1 ≤ n ∧ n ≤ 6) ∧ trimStart l = List.replicate n '#' ++ rest ∧
      (rest = [] ∨ rest.head? = some ' ') ∧ trim rest = text := by
  constructor
  · intro h
    simp only [heading?] at h
    split at h
    · next hcond =>
      -- The number signs at the start are all there are, so they can be counted.
      have hsigns : (trimStart l).takeWhile (· == '#') =
          List.replicate ((trimStart l).takeWhile (· == '#')).length '#' :=
        List.eq_replicate_of_mem fun c hc => by simpa using List.mem_takeWhile_imp hc
      simp only [Bool.and_eq_true, Bool.or_eq_true, decide_eq_true_eq, List.isEmpty_iff,
        beq_iff_eq] at hcond
      refine ⟨((trimStart l).takeWhile (· == '#')).length, (trimStart l).dropWhile (· == '#'),
        hcond.1, ?_, hcond.2, Option.some.inj h⟩
      rw [← hsigns, List.takeWhile_append_dropWhile]
    · exact absurd h (by simp)
  · rintro ⟨n, rest, hn, hl, hrest, rfl⟩
    have hsigns : ∀ c ∈ List.replicate n '#', (c == '#') = true := fun c hc => by
      simp [List.eq_of_mem_replicate hc]
    -- The signs end where the rest begins.
    have hstop : rest.takeWhile (· == '#') = [] ∧ rest.dropWhile (· == '#') = rest := by
      rcases hrest with rfl | hspace
      · exact ⟨rfl, rfl⟩
      · obtain ⟨rest, rfl⟩ := List.head?_eq_some_iff.mp hspace
        exact ⟨rfl, rfl⟩
    simp only [heading?]
    rw [hl, List.takeWhile_append_of_pos hsigns, List.dropWhile_append_of_pos hsigns, hstop.1,
      hstop.2, List.append_nil, List.length_replicate, if_pos]
    simpa using ⟨hn, hrest⟩

/-- A line that is cut opens a sponsor section only if the whole line does. -/
theorem opensSponsors_mono (hstart : trimStart l <+: trimStart m)
    (h : (heading? l).any isSponsorHeading = true) :
    (heading? m).any isSponsorHeading = true := by
  obtain ⟨text, htext, hsponsor⟩ := Option.any_eq_true _ _ |>.mp h
  obtain ⟨n, rest, hn, hl, hrest, rfl⟩ := heading?_eq_some_iff.mp htext
  obtain ⟨tail, hm⟩ := hstart
  rcases hrest with rfl | hspace
  · -- A heading without a text names no sponsors.
    exact absurd hsponsor (by decide)
  · have hmore : heading? m = some (trim (rest ++ tail)) :=
      heading?_eq_some_iff.mpr ⟨n, rest ++ tail, hn, by rw [← hm, hl, List.append_assoc],
        .inr (by rw [List.head?_append, hspace]; rfl), rfl⟩
    have htrim : trim rest <+: trim (rest ++ tail) :=
      Text.trim_mono (Text.trimStart_mono (List.prefix_append rest tail))
    rw [hmore]
    exact isSponsorHeading_mono htrim.isInfix hsponsor

/-! ### Lines without harm -/

/-- A line that is kept unless a sponsor section holds it, and opens none. -/
structure IsHarmless (l : List Char) : Prop where
  heading : (heading? l).any isSponsorHeading = false
  badge : isBadge l = false
  promotional : isPromotional l = false

/-- What is cut out of a line, no later than where it begins to say something, is without harm if the
line is. -/
theorem IsHarmless.of_part (h : IsHarmless m) (hpart : l <:+: m)
    (hstart : trimStart l <+: trimStart m) : IsHarmless l where
  heading := Bool.eq_false_iff.mpr fun hl =>
    Bool.eq_false_iff.mp h.heading (opensSponsors_mono hstart hl)
  badge := Bool.eq_false_iff.mpr fun hl => Bool.eq_false_iff.mp h.badge (isBadge_mono hstart hl)
  promotional := Bool.eq_false_iff.mpr fun hl =>
    Bool.eq_false_iff.mp h.promotional (isPromotional_mono hpart hl)

/-- The start of a harmless line is harmless. -/
theorem IsHarmless.ofStart (h : IsHarmless m) (hstart : l <+: m) : IsHarmless l :=
  h.of_part hstart.isInfix (Text.trimStart_mono hstart)

theorem IsHarmless.trimStart (h : IsHarmless l) : IsHarmless (trimStart l) :=
  h.of_part (List.dropWhile_suffix isBlank).isInfix (by
    rw [Text.trimStart, Text.trimStart, List.dropWhile_idempotent])

/-- The lines that are kept are harmless. -/
theorem isHarmless_of_mem_pick (hl : l ∈ pick ls) : IsHarmless l := by
  obtain ⟨⟨l, i⟩, hx, rfl⟩ := List.mem_map.mp hl
  obtain ⟨hmem, hkept⟩ := List.mem_filter.mp hx
  have hkept : IsKept ls i l := of_decide_eq_true hkept
  refine ⟨?_, hkept.badge, hkept.promotional⟩
  have hline : ls[i]? = some l := List.mem_zipIdx_iff_getElem?.mp hmem
  -- The nearest heading of a line that is a heading is its own.
  have houtside := hkept.outside
  rw [nearestHeading?, List.take_add_one, hline, Option.toList_some, List.reverse_append,
    List.reverse_singleton, List.singleton_append, List.findSome?_cons] at houtside
  cases hheading : heading? l with
  | none => rfl
  | some text => rwa [hheading] at houtside

/-- The lines that are kept are harmless when they are tidied as well. -/
theorem isHarmless_of_mem_kept
    (hl : l ∈ (tidied (pick ls)).modifyHead Text.trimStart) : IsHarmless l := by
  have htidied : ∀ m ∈ tidied (pick ls), IsHarmless m := by
    intro m hm
    obtain ⟨k, hk, rfl⟩ := exists_of_mem_tidied hm
    exact (isHarmless_of_mem_pick hk).ofStart (Text.trimEnd_isPrefix k)
  -- Only the first line is changed.
  cases hrows : tidied (pick ls) with
  | nil => simp [hrows] at hl
  | cons first rest =>
    rw [hrows] at hl htidied
    rcases List.mem_cons.mp hl with rfl | hl
    · exact (htidied first List.mem_cons_self).trimStart
    · exact htidied l (List.mem_cons_of_mem first hl)

/-! ### Cleaning what is clean -/

/-- Among harmless lines, no nearest heading is one of sponsors. -/
theorem nearestHeading?_eq_none_or (h : ∀ l ∈ ls, IsHarmless l) (i : Nat) :
    (nearestHeading? ls i).any isSponsorHeading = false := by
  cases hnearest : nearestHeading? ls i with
  | none => rfl
  | some text =>
    obtain ⟨l, hl, htext⟩ := List.exists_of_findSome?_eq_some hnearest
    have hmem : l ∈ ls := (List.take_subset (i + 1) ls) (List.mem_reverse.mp hl)
    rw [← htext]
    exact (h l hmem).heading

/-- Harmless lines are all kept. -/
theorem pick_eq_self (h : ∀ l ∈ ls, IsHarmless l) : pick ls = ls := by
  rw [pick, List.filter_eq_self.mpr, List.zipIdx_map_fst]
  intro x hx
  have hline := h x.1 (List.fst_mem_of_mem_zipIdx hx)
  exact decide_eq_true ⟨nearestHeading?_eq_none_or h x.2, hline.badge, hline.promotional⟩

/-- Tidy lines stay as they are. -/
theorem IsTidy.tidied_eq_self (h : IsTidy ls) : tidied ls = ls := by
  have htrim : ls.map trimEnd = ls :=
    (List.map_congr_left fun l hl => Text.trimEnd_eq_self (h.solidEnd l hl)).trans (List.map_id ls)
  have hfirst : ls.dropWhile allBlank = ls := by
    cases ls with
    | nil => rfl
    | cons l ls => exact List.dropWhile_cons_of_neg (by simp [h.first l rfl])
  have hlast : ls.rdropWhile allBlank = ls :=
    List.rdropWhile_eq_self_iff.mpr fun hls => by
      simp [h.last _ (List.getLast?_eq_some_getLast hls)]
  rw [tidied, htrim, List.destutter_of_isChain _ _ h.apart, hfirst, hlast]

/-- The first of clean lines begins with no blank. -/
theorem IsClean.modifyHead_eq_self (h : IsClean ls) : ls.modifyHead Text.trimStart = ls := by
  cases ls with
  | nil => rfl
  | cons l ls =>
    have hstart : Text.trimStart l = l := by
      cases l with
      | nil => rfl
      | cons c l => exact List.dropWhile_cons_of_neg (by simp [h.solidStart _ rfl c rfl])
    rw [List.modifyHead_cons, hstart]

/-- Clean lines without harm are cleaned to themselves. -/
theorem clean_joinWith (h : IsClean ls) (hharmless : ∀ l ∈ ls, IsHarmless l)
    (hlength : (joinWith ['\n'] ls).length ≤ maxChars) :
    clean (joinWith ['\n'] ls) = joinWith ['\n'] ls := by
  have hkept : keptText (joinWith ['\n'] ls) = joinWith ['\n'] ls := by
    rw [keptText_eq_tidyText, tidyText, Text.lines_joinWith h.areLines, pick_eq_self hharmless,
      h.toIsTidy.tidied_eq_self, h.modifyHead_eq_self]
  rw [clean, hkept, if_pos hlength]

/-- **A cleaned README is clean.** Cleaning it again changes nothing, also where it was cut in the
middle of a line. -/
theorem clean_clean (s : List Char) : clean (clean s) = clean s := by
  obtain ⟨ls, hls, heq, hparts⟩ := exists_clean_eq s
  have hharmless : ∀ l ∈ ls, IsHarmless l := by
    intro l hl
    obtain ⟨m, hm, hstart⟩ := hparts l hl
    exact (isHarmless_of_mem_kept hm).ofStart hstart
  have hlength := length_clean_le s
  rw [heq] at hlength ⊢
  exact clean_joinWith hls hharmless hlength

end GuidedTour.Readme
