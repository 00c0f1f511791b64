import GuidedTour.Text.Word
import GuidedTour.Text.CaseTable

namespace GuidedTour.Text

/-!
# Lower case

`lower` maps a text to lower case. One character can become two (U+0130), and the capital sigma
becomes a final sigma exactly where it ends a word: some cased character stands before it and none
after it, case-ignorable characters being passed over.
-/

/-- The lower case of a character outside ASCII that has a one-character lower case. -/
def lowerByRun (n : Nat) : Nat :=
  match lowerRuns.find? fun run => run.1 ≤ n && n ≤ run.2.1 && (n - run.1) % run.2.2.1 == 0 with
  | some run => (n + run.2.2.2 : Int).toNat
  | none => n

/-- The lower case of a character, its neighbours left aside. -/
def lowerChar (c : Char) : List Char :=
  if c.toNat < 128 then [c.toLower]
  else if c.toNat == 0x130 then ['i', Char.ofNat 0x307]
  else [Char.ofNat (lowerByRun c.toNat)]

/-- Whether the first character that is not case-ignorable is a cased one. -/
def casedNext (s : List Char) : Bool :=
  match s.dropWhile fun c => inRanges caseIgnorableRanges c.toNat with
  | [] => false
  | c :: _ => inRanges casedRanges c.toNat

/-- The lower case of a character that stands between two texts; `before` is given backwards. -/
def lowerBetween (before : List Char) (c : Char) (after : List Char) : List Char :=
  if c.toNat == 0x3A3 then
    [Char.ofNat (if casedNext before && !casedNext after then 0x3C2 else 0x3C3)]
  else lowerChar c

/-- Lower-cases what follows `before`; `done` is the result so far. Both are given backwards. -/
def lowerFrom (before done : List Char) : List Char → List Char
  | [] => done.reverse
  | c :: s => lowerFrom (c :: before) ((lowerBetween before c s).reverse ++ done) s

/-- The text in lower case. -/
def lower (s : List Char) : List Char := lowerFrom [] [] s

end GuidedTour.Text

/-- The string in lower case. -/
def String.lowerText (s : String) : String := s.mapText GuidedTour.Text.lower
