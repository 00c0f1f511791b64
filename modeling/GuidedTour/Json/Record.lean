import GuidedTour.Json.Basic

namespace GuidedTour

/-!
# Reading records out of documents

A record is read from an object by the names of its fields, or from an array by their order.

* `Document.record?` — the fields that a document gives. A field given twice, an array that is
  longer than the record, and a key without a text are refused; other keys are passed over;
* `Record.required`, `Record.optional`, `Record.nullable`, `Record.defaulted` — a field by name,
  which differ in what may be missing;
* `Document.nat?`, `Document.text?`, … — the scalars.
-/

/-- The fields a document gives, by their names. -/
structure Record where
  given : List (String × Document)
  positional : Bool

namespace Record

/-- What the document gives for a field. -/
def get? (r : Record) (name : String) : Option Document := r.given.lookup name

/-- A field that has to be given. -/
def required (r : Record) (name : String) (decode : Document → Option α) : Option α :=
  (r.get? name).bind decode

/-- A field with a default for the case that it is not given. -/
def defaulted (r : Record) (name : String) (default : α) (decode : Document → Option α) :
    Option α :=
  match r.get? name with
  | none => some default
  | some d => decode d

/-- A field that may be null or not given. -/
def nullable (r : Record) (name : String) (decode : Document → Option α) : Option (Option α) :=
  match r.get? name with
  | none => some none
  | some .null => some none
  | some d => (decode d).map some

/-- A field that may be null; by name it may also be left out, in an array it keeps its place. -/
def optional (r : Record) (name : String) (decode : Document → Option α) : Option (Option α) :=
  if r.positional && (r.get? name).isNone then none else r.nullable name decode

end Record

namespace Document

/-- The field that a key names; each field is a list of names, the first of which is its own. -/
def fieldNamed (fields : List (List String)) (key : String) : Option String :=
  (fields.find? fun names => names.contains key).bind List.head?

/-- The fields among the members of an object, after those in `done`. -/
def namedFields (fields : List (List String)) (done : List (String × Document)) :
    List (Option String × Document) → Option (List (String × Document))
  | [] => some done
  | (key, value) :: rest =>
    match key with
    | none => none
    | some key =>
      match fieldNamed fields key with
      | none => namedFields fields done rest
      | some name =>
        if (done.lookup name).isSome then none
        else namedFields fields (done ++ [(name, value)]) rest

/-- The fields that a document gives for a record. -/
def record? (fields : List (List String)) : Document → Option Record
  | .object members => (namedFields fields [] members).map fun given => ⟨given, false⟩
  | .array items =>
    if fields.length < items.length then none
    else some ⟨(fields.filterMap List.head?).zip items, true⟩
  | _ => none

/-- A text. -/
def text? : Document → Option String
  | .string s => s
  | _ => none

/-- A truth value. -/
def bool? : Document → Option Bool
  | .bool b => some b
  | _ => none

/-- An integer from zero up to a bound. -/
def nat? (bound : Nat) : Document → Option Nat
  | .number (some (.int z)) => if 0 ≤ z && z ≤ bound then some z.toNat else none
  | _ => none

/-- A number in 32 bits. -/
def single? : Document → Option Binary
  | .number (some (.int z)) => some (.ofInt .single z)
  | .number (some (.real x)) => some (x.toFormat .single)
  | _ => none

/-- A list whose items are all read the same way. -/
def list? (decode : Document → Option α) : Document → Option (List α)
  | .array items => items.mapM decode
  | _ => none

/-- One of a set of words; also an object whose only member has the word as its key and null as its
value. -/
def word? (meaning : String → Option α) : Document → Option α
  | .string (some s) => meaning s
  | .object [(some s, .null)] => meaning s
  | _ => none

end Document

/-- The bounds of natural numbers in 64 and in 32 bits. -/
def natMax64 : Nat := UInt64.size - 1

@[inherit_doc natMax64]
def natMax32 : Nat := UInt32.size - 1

end GuidedTour
