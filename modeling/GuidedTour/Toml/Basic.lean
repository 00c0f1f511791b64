import GuidedTour.Json.Basic

namespace GuidedTour

/-!
# TOML values and how tables grow

* `Toml` — a value;
* `Toml.document` — a value as a document. A moment in time is no text and no number there, only an
  object without a known key;
* `Toml.Entry`, `Toml.Members` — tables while a text is read. A table may be extended by later
  lines, but not in every way: that depends on what brought it about;
* `Toml.putKey`, `Toml.openTable`, `Toml.openRow` — what the three kinds of lines do to the tables.
  Each is refused where it would define something twice.
-/

/-- A TOML value. -/
inductive Toml where
  | string (s : String)
  | integer (z : Int)
  | real (x : Binary)
  | boolean (b : Bool)
  | moment (written : String)
  | array (items : List Toml)
  | table (members : List (String × Toml))
  deriving Inhabited

namespace Toml

/-- The value of a member of a table. -/
def member? (key : String) : Toml → Option Toml
  | .table members => members.lookup key
  | _ => none

/-- The text of a string. -/
def text? : Toml → Option String
  | .string s => some s
  | _ => none

/-- The key under which a moment stands in a document. -/
def momentKey : String := "$moment"

mutual

/-- A value as a document. -/
def document : Toml → Document
  | .string s => .string (some s)
  | .integer z => .number (some (.int z))
  | .real x => .number (some (.real x))
  | .boolean b => .bool b
  | .moment written => .object [(some momentKey, .string (some written))]
  | .array items => .array (documents items)
  | .table members => .object (memberDocuments members)

@[inherit_doc document]
def documents : List Toml → List Document
  | [] => []
  | item :: rest => item.document :: documents rest

@[inherit_doc document]
def memberDocuments : List (String × Toml) → List (Option String × Document)
  | [] => []
  | (key, value) :: rest => (some key, value.document) :: memberDocuments rest

end

/-- What brought a table about: its own header, the header of a table inside it, or a key with
dots. -/
inductive Origin where
  | header | inner | dotted
  deriving DecidableEq, Repr

/-- What stands under a key while a text is read. Of the rows of an array of tables the last one is
the first in the list. -/
inductive Entry where
  | value (v : Toml)
  | table (origin : Origin) (members : List (String × Entry))
  | rows (rows : List (List (String × Entry)))

/-- The members of a table while a text is read. -/
abbrev Members := List (String × Entry)

/-- The members with another entry under a key, at the end if the key is new. -/
def putEntry (key : String) (entry : Entry) : Members → Members
  | [] => [(key, entry)]
  | (k, e) :: rest => if k == key then (key, entry) :: rest else (k, e) :: putEntry key entry rest

/-- Changes the table at the end of a path. Tables that are not there are created with the given
origin, and the way through an array of tables goes through its last row. A key with dots does not
lead into a table that has a header of its own. -/
def changeAt (origin : Origin) (change : Origin → Members → Option Members) :
    List String → Origin → Members → Option Members
  | [], reached, members => change reached members
  | key :: path, _, members =>
    match members.lookup key with
    | none =>
      (changeAt origin change path origin []).map fun inner =>
        putEntry key (.table origin inner) members
    | some (.value _) => none
    | some (.table found inner) =>
      if origin == .dotted && found == .header then none
      else (changeAt origin change path found inner).map fun inner =>
        putEntry key (.table found inner) members
    | some (.rows []) => none
    | some (.rows (last :: earlier)) =>
      (changeAt origin change path .header last).map fun inner =>
        putEntry key (.rows (inner :: earlier)) members

/-- Puts a value under a new key of a table. -/
def putNew (key : String) (value : Toml) (members : Members) : Option Members :=
  if (members.lookup key).isSome then none else some (putEntry key (.value value) members)

/-- What the line `path.key = value` does to the table it stands in. A path leads only to a table
that keys with dots brought about. -/
def putKey (path : List String) (key : String) (value : Toml) (members : Members) :
    Option Members :=
  if path.isEmpty then putNew key value members
  else changeAt .dotted
    (fun reached inner => if reached == .dotted then putNew key value inner else none) path .header
    members

/-- What the header `[path.key]` does: it opens a new table, or one that exists only for the sake of
a table inside it. -/
def openTable (path : List String) (key : String) (root : Members) : Option Members :=
  changeAt .inner (fun _ members =>
    match members.lookup key with
    | none => some (putEntry key (.table .header []) members)
    | some (.table .inner inner) => some (putEntry key (.table .header inner) members)
    | some _ => none) path .header root

/-- What the header `[[path.key]]` does: it adds a row to an array of tables. -/
def openRow (path : List String) (key : String) (root : Members) : Option Members :=
  changeAt .inner (fun _ members =>
    match members.lookup key with
    | none => some (putEntry key (.rows [[]]) members)
    | some (.rows rows) => some (putEntry key (.rows ([] :: rows)) members)
    | some _ => none) path .header root

/-- Changes the table that was opened last, which is reached by its path. -/
def inOpenTable (path : List String) (change : Members → Option Members) (root : Members) :
    Option Members :=
  changeAt .inner (fun _ members => change members) path .header root

mutual

/-- The value an entry ends up as. -/
def Entry.close : Entry → Toml
  | .value v => v
  | .table _ members => .table (closeMembers members)
  | .rows rows => .array (closeRows rows).reverse

@[inherit_doc Entry.close]
def closeMembers : List (String × Entry) → List (String × Toml)
  | [] => []
  | (key, entry) :: rest => (key, entry.close) :: closeMembers rest

@[inherit_doc Entry.close]
def closeRows : List (List (String × Entry)) → List Toml
  | [] => []
  | row :: rest => .table (closeMembers row) :: closeRows rest

end

end Toml

end GuidedTour
