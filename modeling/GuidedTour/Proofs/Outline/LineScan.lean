import GuidedTour.Proofs.Outline.CallPattern
import GuidedTour.Proofs.Outline.Methods

namespace GuidedTour

/-!
# What an outline told from lines holds

Every line that declares something has one place in the outline, told from the lines alone.

* `IsLine`, `IsClassLine`, `IsCallableLine` — the lines by their numbers, and what they declare;
* `Owns` — the class on one line owns the function on another one;
* `placements` — the elements of an outline in one row, each with the class that it stands in;
* `Placement.IsFor` — the place that a line should have;
* `ListsUpTo` — a row holds the places of the first lines, and nothing else;
* `StaysOpen`, `LineScan.Reads` — a class is open after a line, and a scan knows which one is;
* `Outline.ofLines_placements` — an outline holds the places of all lines.
-/

/-! ### Lines -/

/-- A text is the line with a number; lines are counted from 1. -/
def IsLine (ls : List (List Char)) : Nat → List Char → Prop
  | 0, _ => False
  | i + 1, l => ls[i]? = some l

/-- A line that declares a class. -/
def IsClassLine (l : List Char) : Prop := ∃ name, MatchesClass l name

/-- A line that declares a function and no class. -/
def IsCallableLine (l : List Char) : Prop :=
  ¬ IsClassLine l ∧ ∃ name isAsync, DeclaresCallable l name isAsync

/-- The class on line `c` owns the function on line `n`: it is the last class before it, and that
function and all functions in between are indented deeper than the class. -/
structure Owns (ls : List (List Char)) (c n : Nat) : Prop where
  before : c < n
  last : ∀ k l, c < k → k < n → IsLine ls k l → ¬ IsClassLine l
  deeper : ∃ head, IsLine ls c head ∧ IsClassLine head ∧ ∀ k l, c < k → k ≤ n → IsLine ls k l →
    IsCallableLine l → indentWidth head < indentWidth l

/-! ### Places -/

/-- An element without what it holds, with the line of the class that holds it. -/
structure Placement where
  owner : Option Nat
  kind : ElementKind
  name : String
  startLine : Nat
  endLine : Nat

/-- The place of an element. -/
def Element.placement (owner : Option Nat) (e : Element) : Placement :=
  ⟨owner, e.kind, e.name, e.startLine, e.endLine⟩

/-- The elements in one row, each followed by its children. -/
def placements (elements : List Element) : List Placement :=
  elements.flatMap fun e =>
    e.placement none :: e.children.map (Element.placement (some e.startLine))

/-- What a function is listed as: a method where a class owns it. -/
def callableKind (isAsync : Bool) : Option Nat → ElementKind
  | some _ => .method
  | none => if isAsync then .asyncFunction else .function

/-- The place that the line with a number should have. -/
inductive Placement.IsFor (ls : List (List Char)) (n : Nat) (l : List Char) : Placement → Prop
  | ofClass {name : List Char} (h : MatchesClass l name) :
      IsFor ls n l ⟨none, .classLike, String.ofList name, n, n⟩
  | ofCallable {name : List Char} {isAsync : Bool} {owner : Option Nat} (hclass : ¬ IsClassLine l)
      (h : DeclaresCallable l name isAsync) (howner : ∀ c, owner = some c ↔ Owns ls c n) :
      IsFor ls n l ⟨owner, callableKind isAsync owner, String.ofList name, n, n⟩

/-- A row with one place for each of the first `i` lines that declares something, in their order. -/
structure ListsUpTo (ls : List (List Char)) (i : Nat) (row : List Placement) : Prop where
  sorted : row.Pairwise fun x y => x.startLine < y.startLine
  placed : ∀ x ∈ row, x.startLine ≤ i ∧ ∃ l, IsLine ls x.startLine l ∧ x.IsFor ls x.startLine l
  complete : ∀ n l, n ≤ i → IsLine ls n l → IsClassLine l ∨ IsCallableLine l →
    ∃ x ∈ row, x.startLine = n

variable {ls : List (List Char)} {i n c : Nat} {l head : List Char}

/-- A number is that of one line. -/
theorem IsLine.unique {l' : List Char} (h : IsLine ls n l) (h' : IsLine ls n l') : l = l' := by
  cases n with
  | zero => exact h.elim
  | succ n => exact Option.some.inj (h.symm.trans h')

/-- Lines are counted from one to the last. -/
theorem IsLine.le_length (h : IsLine ls n l) : 1 ≤ n ∧ n ≤ ls.length := by
  cases n with
  | zero => exact h.elim
  | succ n =>
    obtain ⟨hlt, -⟩ := List.getElem?_eq_some_iff.mp h
    omega

namespace ListsUpTo

variable {row : List Placement} {x : Placement}

theorem nil (ls : List (List Char)) : ListsUpTo ls 0 [] where
  sorted := .nil
  placed := fun _ h => nomatch h
  complete := by
    intro n l hn hline
    have hpos := hline.le_length
    omega

/-- A line that declares something gets its place at the end. -/
theorem snoc (h : ListsUpTo ls i row) (hline : IsLine ls (i + 1) l) (hx : x.IsFor ls (i + 1) l) :
    ListsUpTo ls (i + 1) (row ++ [x]) := by
  -- Whatever the line declares, its placement starts there.
  have hstart : x.startLine = i + 1 := by cases hx <;> rfl
  refine ⟨?_, ?_, ?_⟩
  · rw [List.pairwise_append]
    refine ⟨h.sorted, List.pairwise_singleton _ _, fun y hy z hz => ?_⟩
    rw [List.mem_singleton.mp hz, hstart]
    exact Nat.lt_succ_of_le (h.placed y hy).1
  · intro y hy
    rcases List.mem_append.mp hy with hy | hy
    · obtain ⟨hle, hplaced⟩ := h.placed y hy
      exact ⟨Nat.le_succ_of_le hle, hplaced⟩
    · rw [List.mem_singleton.mp hy, hstart]
      exact ⟨Nat.le_refl _, l, hline, hx⟩
  · intro n l' hn hline' hdeclares
    rcases Nat.lt_or_eq_of_le hn with hlt | rfl
    · obtain ⟨y, hy, hstart⟩ := h.complete n l' (Nat.le_of_lt_succ hlt) hline' hdeclares
      exact ⟨y, List.mem_append_left _ hy, hstart⟩
    · exact ⟨x, by simp, hstart⟩

/-- A line that declares nothing gets none. -/
theorem skip (h : ListsUpTo ls i row) (hline : IsLine ls (i + 1) l)
    (hnone : ¬ (IsClassLine l ∨ IsCallableLine l)) : ListsUpTo ls (i + 1) row where
  sorted := h.sorted
  placed := fun x hx => ⟨Nat.le_succ_of_le (h.placed x hx).1, (h.placed x hx).2⟩
  complete := by
    intro n l' hn hline' hdeclares
    rcases Nat.lt_or_eq_of_le hn with hlt | rfl
    · exact h.complete n l' (Nat.le_of_lt_succ hlt) hline' hdeclares
    · rw [hline'.unique hline] at hdeclares
      exact absurd hdeclares hnone

end ListsUpTo

/-! ### The class that is open -/

/-- The class on line `c` is open after line `i`: no class came after it, and every function since
then is indented deeper. -/
structure StaysOpen (ls : List (List Char)) (i c : Nat) (head : List Char) : Prop where
  le : c ≤ i
  isLine : IsLine ls c head
  isClass : IsClassLine head
  last : ∀ k l, c < k → k ≤ i → IsLine ls k l → ¬ IsClassLine l
  deeper : ∀ k l, c < k → k ≤ i → IsLine ls k l → IsCallableLine l →
    indentWidth head < indentWidth l

namespace StaysOpen

/-- One class is open at most. -/
theorem unique {c' : Nat} {head' : List Char} (h : StaysOpen ls i c head)
    (h' : StaysOpen ls i c' head') : c = c' ∧ head = head' := by
  -- Neither class comes after the other.
  have hle : c' ≤ c := by
    by_contra hlt
    exact h.last c' head' (by omega) h'.le h'.isLine h'.isClass
  have hge : c ≤ c' := by
    by_contra hlt
    exact h'.last c head (by omega) h.le h.isLine h.isClass
  obtain rfl : c = c' := by omega
  exact ⟨rfl, h.isLine.unique h'.isLine⟩

/-- After the line of a class that class is open. -/
theorem of_class (hline : IsLine ls (i + 1) l) (hclass : IsClassLine l) :
    StaysOpen ls (i + 1) (i + 1) l where
  le := Nat.le_refl _
  isLine := hline
  isClass := hclass
  last := by omega
  deeper := by omega

/-- A line that declares no class leaves a class open, unless it declares a function that is not
indented deeper. -/
theorem succ_iff (hline : IsLine ls (i + 1) l) (hclass : ¬ IsClassLine l) :
    StaysOpen ls (i + 1) c head ↔
      StaysOpen ls i c head ∧ (IsCallableLine l → indentWidth head < indentWidth l) := by
  constructor
  · intro h
    have hlt : c < i + 1 := by
      rcases Nat.lt_or_eq_of_le h.le with hlt | rfl
      · exact hlt
      · exact absurd (h.isLine.unique hline ▸ h.isClass) hclass
    -- What held up to the next line holds up to this one.
    refine ⟨⟨Nat.le_of_lt_succ hlt, h.isLine, h.isClass, ?_, ?_⟩,
      h.deeper _ l hlt (Nat.le_refl _) hline⟩
    · exact fun k l' hc hk => h.last k l' hc (Nat.le_succ_of_le hk)
    · exact fun k l' hc hk => h.deeper k l' hc (Nat.le_succ_of_le hk)
  · rintro ⟨h, hdeeper⟩
    refine ⟨Nat.le_succ_of_le h.le, h.isLine, h.isClass, ?_, ?_⟩
    · intro k l' hc hk hline'
      -- Lines before the next one are known; the next one is no class line.
      rcases Nat.lt_or_eq_of_le hk with hlt | rfl
      · exact h.last k l' hc (Nat.le_of_lt_succ hlt) hline'
      · rwa [hline'.unique hline]
    · intro k l' hc hk hline' hcallable
      rcases Nat.lt_or_eq_of_le hk with hlt | rfl
      · exact h.deeper k l' hc (Nat.le_of_lt_succ hlt) hline' hcallable
      · obtain rfl := hline'.unique hline
        exact hdeeper hcallable

/-- The class that a function stands in is the one that is open after its line. -/
theorem owns_iff (hline : IsLine ls n l) (hclass : ¬ IsClassLine l) :
    Owns ls c n ↔ ∃ head, StaysOpen ls n c head := by
  constructor
  · rintro ⟨hlt, hlast, head, hhead, hheadClass, hdeeper⟩
    refine ⟨head, hlt.le, hhead, hheadClass, fun k l' hc hk hline' => ?_, hdeeper⟩
    rcases Nat.lt_or_eq_of_le hk with hk | rfl
    · exact hlast k l' hc hk hline'
    · rwa [hline'.unique hline]
  · rintro ⟨head, h⟩
    have hlt : c < n := by
      rcases Nat.lt_or_eq_of_le h.le with hlt | rfl
      · exact hlt
      · exact absurd (h.isLine.unique hline ▸ h.isClass) hclass
    exact ⟨hlt, fun k l' hc hk => h.last k l' hc hk.le, head, h.isLine, h.isClass, h.deeper⟩

end StaysOpen

/-! ### Scans -/

theorem placements_append (elements more : List Element) :
    placements (elements ++ more) = placements elements ++ placements more :=
  List.flatMap_append

theorem placements_leaf (kind : ElementKind) (name file : String) (n : Nat) :
    placements [.leaf kind name file n n] = [⟨none, kind, name, n, n⟩] := by
  simp [placements, Element.placement, Element.leaf]

/-- A new method comes last if its class does. -/
theorem placements_withChild (e : Element) (name file : String) (n : Nat) :
    placements [e.withChild (.leaf .method name file n n)] =
      placements [e] ++ [⟨some e.startLine, .method, name, n, n⟩] := by
  simp [placements, Element.placement, Element.leaf, Element.withChild]

namespace LineScan

/-- After the first `i` lines a scan holds their places, and knows the class that is open. -/
structure Reads (ls : List (List Char)) (i : Nat) (scan : LineScan) : Prop where
  lists : ListsUpTo ls i (placements scan.elements)
  opened : ∀ o, scan.opened = some o →
    ∃ head, StaysOpen ls i o.element.startLine head ∧ o.indent = indentWidth head
  closed : scan.opened = none → ∀ c head, ¬ StaysOpen ls i c head

namespace Reads

variable {scan : LineScan} {file : String} {name : List Char} {call : Callable}

/-- At the start nothing was read. -/
theorem start (ls : List (List Char)) : Reads ls 0 LineScan.start where
  lists := .nil ls
  opened := fun _ h => nomatch h
  closed := by
    intro _ c head h
    have hc := h.le
    have hpos := h.isLine.le_length
    omega

/-- A class line closes the class that is open and opens its own. -/
theorem openClass (h : scan.Reads ls i) (hline : IsLine ls (i + 1) l)
    (hclass : MatchesClass l name) :
    (scan.openClass file (i + 1) (indentWidth l) name).Reads ls (i + 1) where
  lists := by
    show ListsUpTo ls (i + 1) (placements (scan.elements ++ [_]))
    rw [placements_append, placements_leaf]
    exact h.lists.snoc hline (.ofClass hclass)
  opened := by
    intro o ho
    obtain rfl := Option.some.inj ho
    exact ⟨l, .of_class hline ⟨name, hclass⟩, rfl⟩
  closed := fun h => nomatch h

/-- A function that no class is open for stands for itself. -/
theorem alone (h : scan.Reads ls i) (hline : IsLine ls (i + 1) l) (hclass : ¬ IsClassLine l)
    (hcall : DeclaresCallable l call.name call.isAsync)
    (hfree : ∀ c head, ¬ StaysOpen ls (i + 1) c head) :
    Reads ls (i + 1) ⟨scan.elements ++ [.leaf (if call.isAsync then .asyncFunction else .function)
      (String.ofList call.name) file (i + 1) (i + 1)], none⟩ where
  lists := by
    have howner : ∀ c, none = some c ↔ Owns ls c (i + 1) := by
      intro c
      rw [StaysOpen.owns_iff hline hclass]
      exact iff_of_false (fun hc => nomatch hc) fun ⟨head, hopen⟩ => hfree c head hopen
    show ListsUpTo ls (i + 1) (placements (scan.elements ++ [_] ++ []))
    rw [List.append_nil, placements_append, placements_leaf]
    exact h.lists.snoc hline (.ofCallable hclass hcall howner)
  opened := fun _ ho => nomatch ho
  closed := fun _ => hfree

/-- A function that is indented deeper than the open class is one of its methods. -/
theorem addMethod {opened : OpenClass} (h : scan.Reads ls i) (hline : IsLine ls (i + 1) l)
    (hclass : ¬ IsClassLine l) (hcall : DeclaresCallable l call.name call.isAsync)
    (hopened : scan.opened = some opened) (hdeeper : opened.indent < indentWidth l) :
    (scan.addMethod opened (.leaf .method (String.ofList call.name) file (i + 1) (i + 1))).Reads ls
      (i + 1) := by
  obtain ⟨head, hopen, hindent⟩ := h.opened opened hopened
  -- The class stays open, for the line is indented more than it.
  have hnext : StaysOpen ls (i + 1) opened.element.startLine head :=
    (StaysOpen.succ_iff hline hclass).mpr ⟨hopen, fun _ => hindent ▸ hdeeper⟩
  have howner : ∀ c, some opened.element.startLine = some c ↔ Owns ls c (i + 1) := by
    intro c
    rw [StaysOpen.owns_iff hline hclass]
    constructor
    · intro hc
      obtain rfl := Option.some.inj hc
      exact ⟨head, hnext⟩
    · rintro ⟨head', hopen'⟩
      rw [(hnext.unique hopen').1]
  refine ⟨?_, ?_, fun hnone => nomatch hnone⟩
  · have hlists := h.lists
    rw [elements, hopened, Option.map_some, Option.toList_some, placements_append] at hlists
    show ListsUpTo ls (i + 1) (placements (scan.closed ++ [_]))
    rw [placements_append, placements_withChild, ← List.append_assoc]
    exact hlists.snoc hline (.ofCallable hclass hcall howner)
  · intro o ho
    obtain rfl := Option.some.inj ho
    exact ⟨head, hnext, hindent⟩

/-- A line that declares a callable lists it in the class that is open, or by itself where none is.
-/
theorem addCallable (h : scan.Reads ls i) (hline : IsLine ls (i + 1) l) (hclass : ¬ IsClassLine l)
    (hcall : DeclaresCallable l call.name call.isAsync) :
    (scan.addCallable file (i + 1) (indentWidth l) call).Reads ls (i + 1) := by
  have hcallable : IsCallableLine l := ⟨hclass, call.name, call.isAsync, hcall⟩
  rw [LineScan.addCallable]
  split
  · rename_i opened hopened
    split
    · rename_i hdeeper
      exact h.addMethod hline hclass hcall hopened hdeeper
    · rename_i hshallow
      -- The class that was open is closed by a function that is not indented deeper.
      refine h.alone hline hclass hcall fun c head hnext => ?_
      obtain ⟨hopen, hdeeper⟩ := (StaysOpen.succ_iff hline hclass).mp hnext
      obtain ⟨head', hopen', hindent⟩ := h.opened opened hopened
      obtain ⟨-, rfl⟩ := hopen.unique hopen'
      exact hshallow (hindent ▸ hdeeper hcallable)
  · rename_i hopened
    refine h.alone hline hclass hcall fun c head hnext => ?_
    exact h.closed hopened c head ((StaysOpen.succ_iff hline hclass).mp hnext).1

/-- A line that declares nothing changes nothing. -/
theorem skip (h : scan.Reads ls i) (hline : IsLine ls (i + 1) l) (hclass : ¬ IsClassLine l)
    (hcallable : ¬ IsCallableLine l) : scan.Reads ls (i + 1) where
  lists := h.lists.skip hline fun hdeclares => hdeclares.elim hclass hcallable
  opened := by
    intro o ho
    obtain ⟨head, hopen, hindent⟩ := h.opened o ho
    exact ⟨head, (StaysOpen.succ_iff hline hclass).mpr
      ⟨hopen, fun hl => absurd hl hcallable⟩, hindent⟩
  closed := fun ho c head hnext =>
    h.closed ho c head ((StaysOpen.succ_iff hline hclass).mp hnext).1

/-- One line. -/
theorem line (h : scan.Reads ls i) (hline : IsLine ls (i + 1) l) :
    (scan.line file (i + 1) l).Reads ls (i + 1) := by
  rw [LineScan.line]
  -- A line declares a class, or else a callable, or nothing.
  cases hname : classLine? l with
  | some name => exact h.openClass hline (classLine?_eq_some_iff.mp hname)
  | none =>
    have hclass : ¬ IsClassLine l := by
      rintro ⟨name, hmatch⟩
      rw [classLine?_eq_some_iff.mpr hmatch] at hname
      cases hname
    cases hcall : callableLine? l with
    | some call => exact h.addCallable hline hclass (exists_callableLine?_iff.mp ⟨call.rest, hcall⟩)
    | none =>
      refine h.skip hline hclass ?_
      rintro ⟨-, name, isAsync, hdeclares⟩
      obtain ⟨rest, hsome⟩ := exists_callableLine?_iff.mpr hdeclares
      rw [hcall] at hsome
      cases hsome

/-- All lines from a number on. -/
theorem lines {rest : List (List Char)} (h : scan.Reads ls i) (hrest : ls.drop i = rest) :
    (scan.lines file (i + 1) rest).Reads ls (i + rest.length) := by
  -- What is left after `i` lines begins with line `i + 1`, and the numbers go on from there.
  induction rest generalizing scan i with
  | nil => exact h
  | cons l rest ih =>
    have hline : IsLine ls (i + 1) l := by
      show ls[i]? = some l
      rw [← List.head?_drop, hrest, List.head?_cons]
    have hnext : ls.drop (i + 1) = rest := by
      rw [← List.tail_drop, hrest, List.tail_cons]
    have hcount : i + (l :: rest).length = i + 1 + rest.length := by
      rw [List.length_cons]
      omega
    rw [hcount]
    exact ih (h.line hline) hnext

end Reads

end LineScan

/-! ### Outlines -/

/-- Every line feed ends a line, and what follows the last one is a line unless it is empty. -/
theorem length_linesFrom {line : List Char} (hline : '\n' ∉ line) (s : List Char) :
    (Text.linesFrom line s).length =
      s.count '\n' + if (line.reverse ++ s).getLast?.all (· == '\n') then 0 else 1 := by
  -- `line` is what is read of a line so far, backwards; a line feed starts a new one.
  induction s generalizing line with
  | nil =>
    rw [List.append_nil, List.getLast?_reverse, Text.linesFrom]
    cases line with
    | nil => rfl
    | cons c line =>
      have hc : c ≠ '\n' := fun heq => hline (heq ▸ List.mem_cons_self)
      simp [hc]
  | cons c s ih =>
    rw [Text.linesFrom]
    by_cases hc : c = '\n'
    · obtain rfl := hc
      have hlast : (line.reverse ++ '\n' :: s).getLast?.all (· == '\n') =
          ([].reverse ++ s).getLast?.all (· == '\n') := by
        cases s with
        | nil => simp
        | cons d s => simp [List.getLast?_append, List.getLast?_cons]
      rw [if_pos (by decide), List.length_cons, ih List.not_mem_nil]
      simp only [hlast, List.count_cons_self]
      omega
    · have hmore : '\n' ∉ c :: line := by
        rintro (_ | ⟨_, hmem⟩)
        · exact hc rfl
        · exact hline hmem
      rw [if_neg (by simpa using hc), ih hmore, List.reverse_cons, List.append_assoc,
        List.singleton_append, List.count_cons_of_ne hc]

/-- **What an outline told from lines holds.** Each line that declares a class or a function has one
element, which begins and ends there, and the elements come in the order of their lines. A function
is a method of the class that owns it, and stands for itself where none does. -/
theorem Outline.ofLines_placements (file language content : String) :
    let ls := Text.lines content.toList
    let o := Outline.ofLines file language content
    ((placements o.elements).Pairwise fun x y => x.startLine < y.startLine) ∧
      (∀ x ∈ placements o.elements, ∃ l, IsLine ls x.startLine l ∧ x.IsFor ls x.startLine l) ∧
      (∀ n l, IsLine ls n l → IsClassLine l ∨ IsCallableLine l →
        ∃ x ∈ placements o.elements, x.startLine = n) ∧
      (∀ e ∈ o.elements, ∀ child ∈ e.children, child.children = []) ∧
      o.lineCount = content.toList.count '\n' +
        if content.toList.getLast?.all (· == '\n') then 0 else 1 := by
  intro ls o
  have hreads : (LineScan.start.lines file 1 ls).Reads ls (0 + ls.length) :=
    (LineScan.Reads.start ls).lines List.drop_zero
  have hlists := hreads.lists
  refine ⟨hlists.sorted, fun x hx => (hlists.placed x hx).2, fun n l hline hdeclares => ?_,
    fun e he child hchild => ((isScanned_of_mem_ofLines he).methods child hchild).2, ?_⟩
  · have hle := hline.le_length.2
    exact hlists.complete n l (by omega) hline hdeclares
  · exact length_linesFrom List.not_mem_nil content.toList

/-- A method, and functions that stand for themselves after one that is not indented. -/
theorem Outline.ofLines_placements_dedented :
    let content := "class A:\n    def inner(self):\n        pass\n" ++
      "def outer():\n    async def nested():\n"
    let ls := Text.lines content.toList
    let row := placements (Outline.ofLines "a.py" "python" content).elements
    row.map (fun x => (x.startLine, x.kind, x.owner)) =
        [(1, .classLike, none), (2, .method, some 1), (4, .function, none),
          (5, .asyncFunction, none)] ∧
      IsLine ls 2 "    def inner(self):".toList ∧ IsCallableLine "    def inner(self):".toList ∧
      ∃ x ∈ row, x.startLine = 2 ∧ ∃ l, IsLine ls 2 l ∧ x.IsFor ls 2 l := by
  intro content ls row
  have hline : IsLine ls 2 "    def inner(self):".toList := by
    show ls[1]? = _
    decide +kernel
  have hcallable : IsCallableLine "    def inner(self):".toList := by
    have hclass : classLine? "    def inner(self):".toList = none := by decide +kernel
    refine ⟨?_, "inner".toList, false, exists_callableLine?_iff.mp ⟨"self):".toList, rfl⟩⟩
    rintro ⟨name, hmatch⟩
    rw [classLine?_eq_some_iff.mpr hmatch] at hclass
    cases hclass
  -- The method is placed by the statement, and the rest of the row is computed.
  have hplaced := Outline.ofLines_placements "a.py" "python" content
  obtain ⟨x, hx, hstart⟩ := hplaced.2.2.1 2 _ hline (.inr hcallable)
  have hfor := hplaced.2.1 x hx
  rw [hstart] at hfor
  exact ⟨by decide +kernel, hline, hcallable, x, hx, hstart, hfor⟩

end GuidedTour
