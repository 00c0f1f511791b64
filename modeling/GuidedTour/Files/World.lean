import GuidedTour.Files.Basic

namespace GuidedTour

/-!
# Looking files up, reading and writing them

* `World` — a tree of files with the path of its top. Nothing lies outside;
* `FileFailure` — why something cannot be done with a path;
* `World.walk` — where a path leads. Links are followed, at most `maxLinks` of them;
* `World.read`, `World.write`, `World.makeFolders`, `World.delete` — what is done with paths.

A location is a list of names from the top, with neither links nor dots.
-/

/-- Why something cannot be done with a path. -/
inductive FileFailure where
  | notFound
  | notFolder
  | isFolder
  | notText
  | alreadyExists
  | badName
  | badPath
  | tooManyLinks
  deriving DecidableEq, Repr

/-- A tree of files. `place` is the path of its top. -/
structure World where
  place : String
  top : FileTree
  deriving Inhabited

/-- How many links are followed on the way. -/
def maxLinks : Nat := 40

/-- How many bytes a name may have. -/
def maxNameBytes : Nat := 255

/-- The names in a path, which is split at every slash. -/
def namesIn (path : String) : List String := (Text.splitAll '/' path.toList).map String.ofList

/-- Where a path leads: to something that is there, or to the place of something that might be put
into a folder. -/
inductive Destination where
  | found (location : List String) (tree : FileTree)
  | free (location : List String)

namespace World

/-- The path of a location. -/
def pathOf (w : World) (location : List String) : String :=
  "/".intercalate (w.place :: location)

/-- Where names lead from a location on, with so many links left. -/
def walk (w : World) (links : Nat) (location : List String) (names : List String) :
    Except FileFailure Destination :=
  match names with
  | [] =>
    match w.top.at? location with
    | some tree => .ok (.found location tree)
    | none => .error .notFound
  | name :: rest =>
    match w.top.at? location with
    | some (.folder entries) =>
      if name == "" || name == "." then walk w links location rest
      else if name == ".." then
        if location.isEmpty then .error .notFound else walk w links location.dropLast rest
      else if maxNameBytes < name.utf8ByteSize then .error .badName
      else match entries.lookup name with
        | none => if rest.isEmpty then .ok (.free (location ++ [name])) else .error .notFound
        | some (.link target) =>
          if target.startsWith "/" then .error .notFound
          else match links with
            | 0 => .error .tooManyLinks
            | links + 1 => walk w links location (namesIn target ++ rest)
        | some _ => walk w links (location ++ [name]) rest
    | some _ => .error .notFolder
    | none => .error .notFound
termination_by (links, names.length)

/-- Where a path leads from a location on. A path from the root leads out of the world. -/
def follow (w : World) (location : List String) (path : String) : Except FileFailure Destination :=
  if path.toList.contains '\x00' then .error .badPath
  else if path.startsWith "/" then .error .notFound
  else w.walk maxLinks location (namesIn path)

/-- What a path leads to, with its location. -/
def find (w : World) (location : List String) (path : String) :
    Except FileFailure (List String × FileTree) :=
  match w.follow location path with
  | .ok (.found location tree) => .ok (location, tree)
  | .ok (.free _) => .error .notFound
  | .error failure => .error failure

/-- The text of a file. -/
def read (w : World) (location : List String) (path : String) : Except FileFailure String :=
  match w.find location path with
  | .ok (_, .file bytes) =>
    match String.fromUTF8? bytes with
    | some text => .ok text
    | none => .error .notText
  | .ok _ => .error .isFolder
  | .error failure => .error failure

/-- The location of a folder. -/
def folder? (w : World) (location : List String) (path : String) : Option (List String) :=
  match w.find location path with
  | .ok (location, .folder _) => some location
  | _ => none

/-- The world with something at a location. -/
def put (w : World) (location : List String) (tree : FileTree) : World :=
  { w with top := w.top.place location tree }

/-- The world with a text in a file, which may be new. -/
def write (w : World) (location : List String) (path : String) (bytes : ByteArray) :
    Except FileFailure World :=
  match w.follow location path with
  | .ok (.found location (.file _)) => .ok (w.put location (.file bytes))
  | .ok (.found ..) => .error .isFolder
  | .ok (.free location) => .ok (w.put location (.file bytes))
  | .error failure => .error failure

/-- The world with folders one inside another, as far as they are not there. -/
def makeFolders (w : World) (location : List String) :
    List String → Except FileFailure (World × List String)
  | [] => .ok (w, location)
  | name :: rest =>
    match w.walk maxLinks location [name] with
    | .ok (.found location (.folder _)) => w.makeFolders location rest
    | .ok (.found ..) => .error .alreadyExists
    | .ok (.free new) =>
      if new == location ++ [name] && (w.top.at? new).isNone then
        (w.put new (.folder [])).makeFolders new rest
      else .error .alreadyExists
    | .error failure => .error failure

/-- The world without a file or folder, if it is there. -/
def delete (w : World) (location : List String) (path : String) : Option World :=
  let names := namesIn path
  match w.walk maxLinks location names.dropLast, names.getLast? with
  | .ok (.found inside tree), some name =>
    if (tree.entries.lookup name).isSome then
      some { w with top := w.top.remove (inside ++ [name]) }
    else none
  | _, _ => none

end World

end GuidedTour
