import GuidedTour.Number.Shortest

namespace GuidedTour

/-!
# JSON values and JSON documents

* `Json` — a value: every string is text, every number has a value, an object has each key once;
* `Document` — what a text spells, before any value is asked of it: members stand in written order,
  repeated keys included, and a scalar without a value (a number beyond the doubles, a string with
  half a surrogate pair) is kept as `none`;
* `Json.document` — a value as a document;
* `Document.value?` — the value of a document. There is none where a scalar has none or where more
  than `maxDepth` arrays and objects are nested; of a repeated key the last member counts.
-/

/-- A number: an integer as long as it was written as one and fits in 64 bits, else a double. -/
inductive Number where
  | int (z : Int)
  | real (x : Binary)
  deriving DecidableEq, Repr, Inhabited

/-- A JSON value. -/
inductive Json where
  | null
  | bool (b : Bool)
  | number (n : Number)
  | string (s : String)
  | array (items : List Json)
  | object (members : List (String × Json))
  deriving Inhabited

/-- A JSON text as written. -/
inductive Document where
  | null
  | bool (b : Bool)
  | number (n : Option Number)
  | string (s : Option String)
  | array (items : List Document)
  | object (members : List (Option String × Document))
  deriving Inhabited

namespace Json

/-- A natural number as a value. -/
def nat (n : Nat) : Json := .number (.int n)

/-- An integer as a value. -/
def int (z : Int) : Json := .number (.int z)

/-- A list of texts as a value. -/
def texts (items : List String) : Json := .array (items.map .string)

/-- A value that may be missing, written as null. -/
def orNull (f : α → Json) : Option α → Json
  | none => .null
  | some a => f a

mutual

/-- A value as a document. -/
def document : Json → Document
  | .null => .null
  | .bool b => .bool b
  | .number n => .number (some n)
  | .string s => .string (some s)
  | .array items => .array (documents items)
  | .object members => .object (memberDocuments members)

@[inherit_doc document]
def documents : List Json → List Document
  | [] => []
  | item :: rest => item.document :: documents rest

@[inherit_doc document]
def memberDocuments : List (String × Json) → List (Option String × Document)
  | [] => []
  | (key, value) :: rest => (some key, value.document) :: memberDocuments rest

end

/-- The members with one more; a member with the same key gives way to it. -/
def putMember (key : String) (value : Json) : List (String × Json) → List (String × Json)
  | [] => [(key, value)]
  | (k, v) :: rest => if k == key then (key, value) :: rest else (k, v) :: putMember key value rest

/-- The members with each key once, the last value given for it. -/
def lastOfEachKey (members : List (String × Json)) : List (String × Json) :=
  members.foldl (fun done m => putMember m.1 m.2 done) []

/-- The value of a member of an object. -/
def member? (key : String) : Json → Option Json
  | .object members => members.lookup key
  | _ => none

/-- The text of a string. -/
def text? : Json → Option String
  | .string s => some s
  | _ => none

/-- The items of an array. -/
def items? : Json → Option (List Json)
  | .array items => some items
  | _ => none

/-- Whether the value is an object. -/
def isObject : Json → Bool
  | .object _ => true
  | _ => false

end Json

namespace Document

/-- How many arrays and objects may lie inside one another in a text that is read as a value. -/
def maxDepth : Nat := 127

mutual

/-- The value of a document with room for so many more levels. -/
def valueWithin : Nat → Document → Option Json
  | _, .null => some .null
  | _, .bool b => some (.bool b)
  | _, .number n => n.map .number
  | _, .string s => s.map .string
  | 0, .array _ => none
  | depth + 1, .array items => (valuesWithin depth items).map .array
  | 0, .object _ => none
  | depth + 1, .object members =>
    (membersWithin depth members).map fun ms => .object (Json.lastOfEachKey ms)

@[inherit_doc valueWithin]
def valuesWithin : Nat → List Document → Option (List Json)
  | _, [] => some []
  | depth, item :: rest => do
    let value ← valueWithin depth item
    let values ← valuesWithin depth rest
    pure (value :: values)

@[inherit_doc valueWithin]
def membersWithin : Nat → List (Option String × Document) → Option (List (String × Json))
  | _, [] => some []
  | depth, (key, item) :: rest => do
    let key ← key
    let value ← valueWithin depth item
    let values ← membersWithin depth rest
    pure ((key, value) :: values)

end

/-- The value of a document. -/
def value? (d : Document) : Option Json := d.valueWithin maxDepth

end Document

end GuidedTour
