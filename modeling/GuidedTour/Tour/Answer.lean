import GuidedTour.Json.Reader
import GuidedTour.Tour.Step

namespace GuidedTour.Answer

/-!
# Drafts in the answers of the text service

The service is asked for a bare JSON array but may put prose around it.

* `array?` — the text from the first opening bracket to the bracket that closes it. Brackets inside
  strings do not count;
* `drafts` — the drafts in that array. An item that is no object or cannot be read is left out; an
  array that cannot be read has no drafts.
-/

/-- Where a scan stands: outside a string, inside one, or behind a backslash inside one. -/
inductive Mode where
  | plain | quoted | escaped
  deriving DecidableEq, Repr

/-- The text up to the bracket that closes the outermost array. `depth` arrays are open and `done`
is the text so far, backwards. -/
def closeArray (mode : Mode) (depth : Nat) (done : List Char) : List Char → Option (List Char)
  | [] => none
  | c :: s =>
    match mode with
    | .escaped => closeArray .quoted depth (c :: done) s
    | .quoted =>
      closeArray (if c == '\\' then .escaped else if c == '"' then .plain else .quoted) depth
        (c :: done) s
    | .plain =>
      if c == '"' then closeArray .quoted depth (c :: done) s
      else if c == '[' then closeArray .plain (depth + 1) (c :: done) s
      else if c == ']' then
        if depth ≤ 1 then some (c :: done).reverse else closeArray .plain (depth - 1) (c :: done) s
      else closeArray .plain depth (c :: done) s

/-- The array that begins at the first opening bracket of a text. -/
def array? (s : List Char) : Option (List Char) :=
  closeArray .plain 0 [] (s.dropWhile (· != '['))

/-- The draft that an item of an answer holds. -/
def draft? (item : Json) : Option Draft :=
  if item.isObject then Draft.ofDocument? item.document else none

/-- The drafts in an answer. -/
def drafts (s : List Char) : List Draft :=
  match ((array? s).bind Json.parse).bind Json.items? with
  | some items => items.filterMap draft?
  | none => []

end GuidedTour.Answer
