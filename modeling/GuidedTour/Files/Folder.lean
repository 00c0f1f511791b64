import GuidedTour.Files.Listing
import GuidedTour.Tour.Artifact
import GuidedTour.Workspace.Basic

namespace GuidedTour

/-!
# Folders as workspaces

* `World.workspace` — the workspace that a folder is;
* `World.writeTour` — puts a tour into the folder for tours at the root of a workspace;
* `World.tours` — the texts in that folder.
-/

namespace World

/-- The workspace that a folder is. The top itself has no name. -/
def workspace (w : World) (folder : List String) : Workspace :=
  { root := w.pathOf folder
    name := folder.getLast?.getD "workspace"
    listed := listFiles w folder
    textOf? := fun path => match w.read folder path with
      | .ok text => some text
      | .error _ => none }

/-- The world with a tour in a folder, and the path of the tour. -/
def writeTour (w : World) (folder : List String) (t : Tour) : Except FileFailure (World × String) :=
  match w.makeFolders folder [toursFolder] with
  | .error failure => .error failure
  | .ok (w, tours) =>
    match w.write tours t.fileName t.toText.toUTF8 with
    | .error failure => .error failure
    | .ok w => .ok (w, t.pathIn (w.pathOf folder))

/-- The texts in the folder for tours, by the names of their files. -/
def tours (w : World) (folder : List String) : List (String × String) :=
  match w.find folder toursFolder with
  | .ok (location, tree) => tree.entries.filterMap fun entry =>
    match w.read location entry.1 with
    | .ok text => some (entry.1, text)
    | .error _ => none
  | .error _ => []

end World

end GuidedTour
