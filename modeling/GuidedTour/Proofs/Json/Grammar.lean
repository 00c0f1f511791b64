import GuidedTour.Json.Reader

namespace GuidedTour

/-!
# The grammar of JSON texts

Which text spells which document, production by production and apart from the reader.

* `SpellsNumber` — number literals, from `SpellsFraction` and `SpellsExponent`;
* `SpellsString` — string literals, from `SpellsPieces`;
* `Spells`, `SpellsText` — values without and with gaps around them, together with `SpellsItems` for
  what stands between the brackets of an array and `SpellsMembers` for what stands between the
  braces of an object.
-/

/-! ### Numbers -/

/-- A row of decimal digits that is not empty. -/
def IsDigits (ds : List Char) : Prop := ds ≠ [] ∧ ∀ c ∈ ds, c.isDigit = true

/-- The digits before the point: no digit follows a leading zero. -/
def IsWhole (ds : List Char) : Prop := IsDigits ds ∧ (ds.head? = some '0' → ds = ['0'])

/-- A fraction, which may be missing. -/
inductive SpellsFraction : List Char → Option (List Char) → Prop
  | absent : SpellsFraction [] none
  | present {ds : List Char} (hdigits : IsDigits ds) : SpellsFraction ('.' :: ds) (some ds)

/-- The sign of an exponent; whether it points down. -/
inductive SpellsSign : List Char → Bool → Prop
  | absent : SpellsSign [] false
  | plus : SpellsSign ['+'] false
  | minus : SpellsSign ['-'] true

/-- An exponent, which may be missing. -/
inductive SpellsExponent : List Char → Option (Bool × List Char) → Prop
  | absent : SpellsExponent [] none
  | present {letter : Char} {sign ds : List Char} {down : Bool}
      (hletter : letter = 'e' ∨ letter = 'E') (hsign : SpellsSign sign down)
      (hdigits : IsDigits ds) : SpellsExponent (letter :: (sign ++ ds)) (some (down, ds))

/-- A number literal after its sign. -/
inductive SpellsUnsigned (negative : Bool) : List Char → NumberText → Prop
  | parts {whole fraction exponent : List Char} {f : Option (List Char)}
      {e : Option (Bool × List Char)} (hwhole : IsWhole whole)
      (hfraction : SpellsFraction fraction f) (hexponent : SpellsExponent exponent e) :
      SpellsUnsigned negative (whole ++ (fraction ++ exponent)) ⟨negative, whole, f, e⟩

/-- A number literal. -/
inductive SpellsNumber : List Char → NumberText → Prop
  | plain {s : List Char} {t : NumberText} (h : SpellsUnsigned false s t) : SpellsNumber s t
  | minus {s : List Char} {t : NumberText} (h : SpellsUnsigned true s t) : SpellsNumber ('-' :: s) t

/-! ### Strings -/

/-- The characters between the quotes of a string. Quotes, backslashes and control characters have
to be escaped; any code unit may be. -/
inductive SpellsPieces : List Char → List StringPiece → Prop
  | nil : SpellsPieces [] []
  | char {c : Char} {s : List Char} {pieces : List StringPiece} (hcontrol : 32 ≤ c.toNat)
      (hquote : c ≠ '"') (hbackslash : c ≠ '\\') (hrest : SpellsPieces s pieces) :
      SpellsPieces (c :: s) (.char c :: pieces)
  | escape {letter c : Char} {s : List Char} {pieces : List StringPiece}
      (hletter : escapedChar? letter = some c) (hrest : SpellsPieces s pieces) :
      SpellsPieces ('\\' :: letter :: s) (.char c :: pieces)
  | unit {a b c d : Char} {n : Nat} {s : List Char} {pieces : List StringPiece}
      (hunit : hexUnit? a b c d = some n) (hrest : SpellsPieces s pieces) :
      SpellsPieces ('\\' :: 'u' :: a :: b :: c :: d :: s) (.unit n :: pieces)

/-- A string literal, and its text if it has one. -/
inductive SpellsString : List Char → Option String → Prop
  | quoted {s : List Char} {pieces : List StringPiece} (h : SpellsPieces s pieces) :
      SpellsString ('"' :: (s ++ ['"'])) ((joinPieces [] pieces).map String.ofList)

/-! ### Values -/

/-- A text of nothing but gaps, which may be empty. -/
def IsGap (s : List Char) : Prop := ∀ c ∈ s, Document.isGap c = true

mutual

/-- A value without a gap before or after it. -/
inductive Spells : List Char → Document → Prop
  | null : Spells ['n', 'u', 'l', 'l'] .null
  | true : Spells ['t', 'r', 'u', 'e'] (.bool Bool.true)
  | false : Spells ['f', 'a', 'l', 's', 'e'] (.bool Bool.false)
  | number {s : List Char} {t : NumberText} (h : SpellsNumber s t) : Spells s (.number t.value)
  | string {s : List Char} {text : Option String} (h : SpellsString s text) :
      Spells s (.string text)
  | noItems {gap : List Char} (h : IsGap gap) : Spells ('[' :: (gap ++ [']'])) (.array [])
  | array {s : List Char} {items : List Document} (h : SpellsItems s items) :
      Spells ('[' :: (s ++ [']'])) (.array items)
  | noMembers {gap : List Char} (h : IsGap gap) :
      Spells ('\x7b' :: (gap ++ ['\x7d'])) (.object [])
  | object {s : List Char} {members : List (Option String × Document)}
      (h : SpellsMembers s members) : Spells ('\x7b' :: (s ++ ['\x7d'])) (.object members)

/-- A value with gaps around it. -/
inductive SpellsText : List Char → Document → Prop
  | padded {before s after : List Char} {d : Document} (hbefore : IsGap before) (h : Spells s d)
      (hafter : IsGap after) : SpellsText (before ++ (s ++ after)) d

/-- Items with a comma between each two; there is at least one. -/
inductive SpellsItems : List Char → List Document → Prop
  | last {s : List Char} {item : Document} (hitem : SpellsText s item) : SpellsItems s [item]
  | more {s rest : List Char} {item : Document} {items : List Document}
      (hitem : SpellsText s item) (hrest : SpellsItems rest items) :
      SpellsItems (s ++ ',' :: rest) (item :: items)

/-- A key, a colon and a value. -/
inductive SpellsMember : List Char → Option String × Document → Prop
  | pair {before name after s : List Char} {key : Option String} {value : Document}
      (hbefore : IsGap before) (hkey : SpellsString name key) (hafter : IsGap after)
      (hvalue : SpellsText s value) :
      SpellsMember (before ++ (name ++ (after ++ ':' :: s))) (key, value)

/-- Members with a comma between each two; there is at least one. -/
inductive SpellsMembers : List Char → List (Option String × Document) → Prop
  | last {s : List Char} {m : Option String × Document} (hmember : SpellsMember s m) :
      SpellsMembers s [m]
  | more {s rest : List Char} {m : Option String × Document}
      {members : List (Option String × Document)} (hmember : SpellsMember s m)
      (hrest : SpellsMembers rest members) : SpellsMembers (s ++ ',' :: rest) (m :: members)

end

end GuidedTour
