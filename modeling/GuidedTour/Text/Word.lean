import GuidedTour.Text.Basic
import GuidedTour.Text.WordTable

namespace GuidedTour.Text

/-!
# Word characters

* `isWord` — letters, marks, decimal digits, connectors and joiners of any script;
* `isNameStart`, `isNameChar` — what an identifier in a source line may begin and go on with.
-/

/-- Whether a code point lies in one of the ranges. -/
def inRanges (ranges : List (Nat × Nat)) (n : Nat) : Bool :=
  ranges.any fun r => r.1 ≤ n && n ≤ r.2

/-- The ASCII letters, digits and the underscore. -/
def isAsciiWord (c : Char) : Bool := c.isAlphanum || c == '_'

/-- The characters that may stand in a word, in any script. -/
def isWord (c : Char) : Bool :=
  if c.toNat < 128 then isAsciiWord c else inRanges wordRanges c.toNat

/-- An identifier begins with an ASCII letter, an underscore or a dollar sign. -/
def isNameStart (c : Char) : Bool := c.isAlpha || c == '_' || c == '$'

/-- An identifier goes on with word characters and dollar signs. -/
def isNameChar (c : Char) : Bool := isWord c || c == '$'

end GuidedTour.Text
