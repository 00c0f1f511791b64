import GuidedTour.Text.Basic

namespace GuidedTour

/-!
# Trees of files

* `FileTree` — a file, a folder or a link. The entries of a folder stand in the order of their
  names;
* `FileTree.at?`, `FileTree.place`, `FileTree.remove` — what stands at a path of names, without
  following links.
-/

/-- A file with its bytes, a folder, or a link to another path. -/
inductive FileTree where
  | file (bytes : ByteArray)
  | folder (entries : List (String × FileTree))
  | link (target : String)
  deriving Inhabited

namespace FileTree

/-- The entries of a folder; others have none. -/
def entries : FileTree → List (String × FileTree)
  | folder entries => entries
  | _ => []

/-- Whether this is a folder. -/
def isFolder : FileTree → Bool
  | folder _ => true
  | _ => false

/-- Whether this is a file. -/
def isFile : FileTree → Bool
  | file _ => true
  | _ => false

/-- Entries with another one under a name, in the order of the names. -/
def putEntry (name : String) (t : FileTree) : List (String × FileTree) → List (String × FileTree)
  | [] => [(name, t)]
  | (other, u) :: rest =>
    if name < other then (name, t) :: (other, u) :: rest
    else if name == other then (name, t) :: rest
    else (other, u) :: putEntry name t rest

/-- What stands at a path. -/
def at? : List String → FileTree → Option FileTree
  | [], t => some t
  | name :: path, t => (t.entries.lookup name).bind (at? path)

/-- The tree with something else at a path; folders on the way are made. -/
def place : List String → FileTree → FileTree → FileTree
  | [], _, new => new
  | name :: path, t, new =>
    folder (putEntry name (place path ((t.entries.lookup name).getD (folder [])) new) t.entries)

/-- The tree without what stands at a path. -/
def remove : List String → FileTree → FileTree
  | [], t => t
  | [name], t => folder (t.entries.filter fun entry => entry.1 != name)
  | name :: path, t =>
    match t.entries.lookup name with
    | some inner => folder (putEntry name (remove path inner) t.entries)
    | none => t

end FileTree

end GuidedTour
