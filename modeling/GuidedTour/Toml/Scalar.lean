import GuidedTour.Json.Literal
import GuidedTour.Number.Numeral
import GuidedTour.Toml.Basic

namespace GuidedTour.Toml

/-!
# Scalars of TOML

Each reader takes what it reads from the start of a text and returns what follows.

* `readLine`, `readBlock` — strings on one line and on several, with or without escapes;
* `readNumber` — integers in four bases inside 64 bits, and doubles;
* `readMoment` — dates and times that exist.
-/

/-- Whether a character may stand in a string or a comment: no control character but the tab. -/
def isPlain (c : Char) : Bool := c == '\t' || (32 ≤ c.toNat && c.toNat != 127)

/-- Spaces and tabs. -/
def isGap (c : Char) : Bool := c == ' ' || c == '\t'

/-- The text without the gap at its start. -/
def skipGap (s : List Char) : List Char := s.dropWhile isGap

/-- The text after a line end, if it begins with one. -/
def afterLineEnd? : List Char → Option (List Char)
  | '\n' :: s => some s
  | '\r' :: '\n' :: s => some s
  | _ => none

/-- The character behind a one-letter escape. -/
def escaped? (c : Char) : Option Char := if c == '/' then none else escapedChar? c

/-- The character with a code in hexadecimal digits. -/
def charOfHex? (digits : List Char) : Option Char :=
  (digits.mapM hexValue?).bind fun values =>
    let n := values.foldl (fun n d => 16 * n + d) 0
    if h : n.isValidChar then some (Char.ofNatAux n h) else none

/-- A string up to its closing quote. Escapes count in double quotes only. `done` holds the
characters so far, last one first. -/
def readLine (quote : Char) (done : List Char) : List Char → Option (String × List Char)
  | [] => none
  | c :: s =>
    if c == quote then some (String.ofList done.reverse, s)
    else if c == '\\' && quote == '"' then
      match s with
      | 'u' :: d₁ :: d₂ :: d₃ :: d₄ :: s =>
        match charOfHex? [d₁, d₂, d₃, d₄] with
        | some e => readLine quote (e :: done) s
        | none => none
      | 'U' :: d₁ :: d₂ :: d₃ :: d₄ :: d₅ :: d₆ :: d₇ :: d₈ :: s =>
        match charOfHex? [d₁, d₂, d₃, d₄, d₅, d₆, d₇, d₈] with
        | some e => readLine quote (e :: done) s
        | none => none
      | e :: s =>
        match escaped? e with
        | some e => readLine quote (e :: done) s
        | none => none
      | [] => none
    else if isPlain c then readLine quote (c :: done) s
    else none

/-- A string of several lines up to its three closing quotes; one or two quotes may stand right
before them. A backslash at the end of a line takes away all blanks and line ends that follow, which
goes on while `skipping`. -/
def readBlock (quote : Char) (skipping : Bool) (done : List Char) :
    List Char → Option (String × List Char)
  | [] => none
  | c :: s =>
    if skipping && (isGap c || c == '\n') then readBlock quote true done s
    else if c == quote then
      let run := min 5 ((c :: s).takeWhile (· == quote)).length
      if 3 ≤ run then
        some (String.ofList (List.replicate (run - 3) quote ++ done).reverse, (c :: s).drop run)
      else readBlock quote false (c :: done) s
    else if c == '\\' && quote == '"' then
      if (afterLineEnd? (skipGap s)).isSome then readBlock quote true done s
      else match s with
        | 'u' :: d₁ :: d₂ :: d₃ :: d₄ :: s =>
          match charOfHex? [d₁, d₂, d₃, d₄] with
          | some e => readBlock quote false (e :: done) s
          | none => none
        | 'U' :: d₁ :: d₂ :: d₃ :: d₄ :: d₅ :: d₆ :: d₇ :: d₈ :: s =>
          match charOfHex? [d₁, d₂, d₃, d₄, d₅, d₆, d₇, d₈] with
          | some e => readBlock quote false (e :: done) s
          | none => none
        | e :: s =>
          match escaped? e with
          | some e => readBlock quote false (e :: done) s
          | none => none
        | [] => none
    else if c == '\n' || isPlain c then readBlock quote false (c :: done) s
    else if c == '\r' && s.head? == some '\n' then readBlock quote skipping done s
    else none

/-- A string of either kind. A line end right after three opening quotes does not count. -/
def readString (quote : Char) (s : List Char) : Option (String × List Char) :=
  if [quote, quote, quote].isPrefixOf s then
    let s := s.drop 3
    readBlock quote false [] ((afterLineEnd? s).getD s)
  else readLine quote [] (s.drop 1)

/-- Digits up to the first character that is none; underscores may stand between two of them. -/
def moreDigits (isDigit : Char → Bool) (done : List Char) : List Char → List Char × List Char
  | '_' :: c :: s =>
    if isDigit c then moreDigits isDigit (c :: done) s else (done.reverse, '_' :: c :: s)
  | c :: s => if isDigit c then moreDigits isDigit (c :: done) s else (done.reverse, c :: s)
  | [] => (done.reverse, [])

/-- A row of digits that begins with a digit. -/
def readDigits (isDigit : Char → Bool) : List Char → Option (List Char × List Char)
  | c :: s => if isDigit c then some (moreDigits isDigit [c] s) else none
  | [] => none

/-- Decimal digits without a needless zero in front. -/
def readWhole : List Char → Option (List Char × List Char)
  | '0' :: s => some (['0'], s)
  | s => readDigits Char.isDigit s

/-- An integer inside 64 bits. -/
def integer? (z : Int) : Option Toml :=
  if int64Min ≤ z && z ≤ int64Max then some (.integer z) else none

/-- Digits in a base. -/
def readBased (base : Nat) (s : List Char) : Option (Toml × List Char) := do
  let isDigit (c : Char) : Bool := (hexValue? c).any (· < base)
  let (digits, rest) ← readDigits isDigit s
  let n := digits.foldl (fun n c => base * n + (hexValue? c).getD 0) 0
  pure (← integer? n, rest)

/-- An exponent after its letter. -/
def readExponent : List Char → Option (Int × List Char)
  | '+' :: s => (readDigits Char.isDigit s).map fun (ds, s) => (Numeral.digits ds, s)
  | '-' :: s => (readDigits Char.isDigit s).map fun (ds, s) => (-(Numeral.digits ds : Int), s)
  | s => (readDigits Char.isDigit s).map fun (ds, s) => (Numeral.digits ds, s)

/-- The exponent of a double; none is zero. -/
def readExponentPart : List Char → Option (Int × List Char)
  | 'e' :: s => readExponent s
  | 'E' :: s => readExponent s
  | s => some (0, s)

/-- The double with some digits before and after the point. There is none beyond the greatest
double, while below the least one lies minus infinity. -/
def real? (negative : Bool) (whole fraction : List Char) (exponent : Int) : Option Toml :=
  match Numeral.exact .double negative (Numeral.digits (whole ++ fraction))
    (exponent - fraction.length) with
  | .infinite false => none
  | x => some (.real x)

/-- A number after its sign. -/
def readUnsigned (negative : Bool) (s : List Char) : Option (Toml × List Char) :=
  match s with
  | 'i' :: 'n' :: 'f' :: s => some (.real (.infinite negative), s)
  | 'n' :: 'a' :: 'n' :: s => some (.real .nan, s)
  | s => do
    let (whole, rest) ← readWhole s
    match rest with
    | '.' :: rest =>
      let (fraction, rest) ← readDigits Char.isDigit rest
      let (exponent, rest) ← readExponentPart rest
      pure (← real? negative whole fraction exponent, rest)
    | c :: _ =>
      if c == 'e' || c == 'E' then
        let (exponent, rest) ← readExponentPart rest
        pure (← real? negative whole [] exponent, rest)
      else
        let n : Int := Numeral.digits whole
        pure (← integer? (if negative then -n else n), rest)
    | [] =>
      let n : Int := Numeral.digits whole
      pure (← integer? (if negative then -n else n), [])

/-- A number. Only decimal ones have a sign. -/
def readNumber : List Char → Option (Toml × List Char)
  | '+' :: s => readUnsigned false s
  | '-' :: s => readUnsigned true s
  | '0' :: 'x' :: s => readBased 16 s
  | '0' :: 'o' :: s => readBased 8 s
  | '0' :: 'b' :: s => readBased 2 s
  | s => readUnsigned false s

/-- The number that so many digits make. -/
def fixedDigits (count : Nat) (s : List Char) : Option (Nat × List Char) :=
  let ds := s.take count
  if ds.length == count && ds.all Char.isDigit then some (Numeral.digits ds, s.drop count) else none

/-- The text after a character, if it begins with it. -/
def afterChar (c : Char) : List Char → Option (List Char)
  | d :: s => if d == c then some s else none
  | [] => none

/-- The number of days in a month. -/
def daysIn (year month : Nat) : Nat :=
  if month == 2 then if year % 4 == 0 && (year % 100 != 0 || year % 400 == 0) then 29 else 28
  else if [4, 6, 9, 11].contains month then 30
  else 31

/-- What follows a date. -/
def afterDate? (s : List Char) : Option (List Char) := do
  let (year, s) ← fixedDigits 4 s
  let (month, s) ← fixedDigits 2 (← afterChar '-' s)
  let (day, s) ← fixedDigits 2 (← afterChar '-' s)
  if 1 ≤ month && month ≤ 12 && 1 ≤ day && day ≤ daysIn year month then some s else none

/-- What follows hours and minutes. -/
def afterClock? (s : List Char) : Option (List Char) := do
  let (hour, s) ← fixedDigits 2 s
  let (minute, s) ← fixedDigits 2 (← afterChar ':' s)
  if hour < 24 && minute < 60 then some s else none

/-- What follows a time with seconds; a minute may have 61 of them. -/
def afterTime? (s : List Char) : Option (List Char) := do
  let (second, s) ← fixedDigits 2 (← afterChar ':' (← afterClock? s))
  if 60 < second then none
  else match s with
    | '.' :: c :: rest => if c.isDigit then some (rest.dropWhile Char.isDigit) else some s
    | _ => some s

/-- What follows a distance from universal time, which may be missing. -/
def afterOffset (s : List Char) : List Char :=
  match s with
  | 'Z' :: rest => rest
  | 'z' :: rest => rest
  | '+' :: rest => (afterClock? rest).getD s
  | '-' :: rest => (afterClock? rest).getD s
  | _ => s

/-- What follows the time after a date, which may be missing. -/
def afterTimeOfDay (s : List Char) : List Char :=
  match s with
  | c :: rest =>
    if c == 'T' || c == 't' || c == ' ' then ((afterTime? rest).map afterOffset).getD s else s
  | [] => s

/-- A date, a time, or both. -/
def readMoment (s : List Char) : Option (Toml × List Char) :=
  (((afterDate? s).map afterTimeOfDay).or (afterTime? s)).map fun rest =>
    (.moment (String.ofList (s.take (s.length - rest.length))), rest)

end GuidedTour.Toml
