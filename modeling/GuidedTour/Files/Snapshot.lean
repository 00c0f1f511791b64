import GuidedTour.Files.World
import GuidedTour.Json.Basic

namespace GuidedTour

/-!
# Files written down as JSON

* `FileTree.ofJson?` — a text, a list of bytes, a size, a folder or a link;
* `World.ofSnapshot?` — a folder whose files are given by their paths.
-/

/-- The byte that files are filled with of which only the size is given. -/
def fillByte : UInt8 := 120

/-- A byte. -/
def byteOfJson? : Json → Option UInt8
  | .number (.int z) => if 0 ≤ z && z < 256 then some (UInt8.ofNat z.toNat) else none
  | _ => none

/-- A file or folder: a string is a text, an array holds bytes, a number is a size, null is an empty
folder, and an object names the target of a link. -/
def FileTree.ofJson? : Json → Option FileTree
  | .string s => some (.file s.toUTF8)
  | .array items => (items.mapM byteOfJson?).map fun bytes => .file ⟨bytes.toArray⟩
  | .number (.int z) => some (.file ⟨Array.replicate z.toNat fillByte⟩)
  | .null => some (.folder [])
  | j => ((j.member? "symlink").bind Json.text?).map .link

/-- Puts a tree where a path leads to. Folders on the way are made, and a folder that is there
already stays as it is. -/
def FileTree.placeAt (t : FileTree) (path : String) (new : FileTree) : FileTree :=
  let names := (namesIn path).filter (· != "")
  match new, t.at? names with
  | .folder [], some (.folder _) => t
  | _, _ => t.place names new

/-- A world whose only folder has a name and holds files. -/
def World.ofSnapshot? (place name : String) (files : List (String × Json)) : Option World := do
  let trees ← files.mapM fun entry => (FileTree.ofJson? entry.2).map fun t => (entry.1, t)
  let folder := trees.foldl (fun t entry => t.placeAt entry.1 entry.2) (.folder [])
  pure ⟨place, .folder [(name, folder)]⟩

end GuidedTour
