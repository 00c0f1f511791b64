import GuidedTour.Files.IgnoreRule
import GuidedTour.Files.World
import GuidedTour.Text.Lower

namespace GuidedTour

/-!
# Which files of a folder are listed

* `FolderRules` — the ignore rules that one folder brings with it;
* `isPassedOver` — what the rules of a folder and of all folders around it say about an entry;
* `listFiles` — the files inside a folder, depth first, in the order of their names. Hidden entries
  are listed only where a rule keeps them; links, large files and the folders of tools are not.
-/

/-- Names of entries that hold what tools made. -/
def toolNames : List String := [
  ".git", ".hg", ".svn", ".idea", ".vscode", ".cache", "node_modules", "bower_components", ".next",
  ".nuxt", ".turbo", ".output", "dist", "build", "out", "coverage", "target", "vendor",
  "third_party", "__pycache__", ".venv", "venv", ".tours"]

/-- The number of bytes beyond which a file is not listed. -/
def maxListedBytes : Nat := 1048576

/-- The rules of a folder: those of its own ignore file, those that count only in a repository, and
those that the repository keeps to itself. `isRepository` tells whether the folder is the root of
one, `depth` how many names lead to it. -/
structure FolderRules where
  depth : Nat
  own : List IgnoreRule
  shared : List IgnoreRule
  unshared : List IgnoreRule
  isRepository : Bool

/-- The rules in a file. -/
def rulesIn (w : World) (folder : List String) (path : String) : List IgnoreRule :=
  match w.find folder path with
  | .ok (_, .file bytes) => IgnoreRule.ofBytes bytes
  | _ => []

/-- The rules of a folder. -/
def FolderRules.of (w : World) (folder : List String) : FolderRules :=
  { depth := folder.length
    own := rulesIn w folder ".ignore"
    shared := rulesIn w folder ".gitignore"
    unshared := rulesIn w folder ".git/info/exclude"
    isRepository := match w.find folder ".git" with
      | .ok _ => true
      | .error _ => false }

/-- The folders up to the nearest root of a repository. -/
def upToRepository : List FolderRules → List FolderRules
  | [] => []
  | f :: rest => if f.isRepository then [f] else f :: upToRepository rest

/-- What rules of a kind say about a location; the rules of the nearest folder come first. -/
def nearestVerdict? (kind : FolderRules → List IgnoreRule) (chain : List FolderRules)
    (location : List String) (isFolder : Bool) : Option Bool :=
  chain.findSome? fun f => verdict? (kind f) ("/".intercalate (location.drop f.depth)) isFolder

/-- What all rules say about a location. Rules of a repository count only inside one, and only those
of the nearest. -/
def rulesVerdict? (chain : List FolderRules) (location : List String) (isFolder : Bool) :
    Option Bool :=
  let repository :=
    if chain.any FolderRules.isRepository then upToRepository chain else []
  (nearestVerdict? FolderRules.own chain location isFolder).or
    ((nearestVerdict? FolderRules.shared repository location isFolder).or
      (nearestVerdict? FolderRules.unshared repository location isFolder))

/-- Whether an entry with a name is passed over. -/
def isPassedOver (chain : List FolderRules) (location : List String) (name : String)
    (isFolder : Bool) : Bool :=
  (rulesVerdict? chain (location ++ [name]) isFolder).getD (name.startsWith ".") ||
    toolNames.contains name.lowerText

/-- The rules of a folder and of the folders around it, the nearest first. -/
def chainOf (w : World) (folder : List String) : List FolderRules :=
  ((List.range (folder.length + 1)).reverse.map folder.take).map (FolderRules.of w)

mutual

/-- The locations of the files in a tree. -/
def listTree (w : World) (chain : List FolderRules) (location : List String) :
    FileTree → List (List String)
  | .file bytes => if maxListedBytes < bytes.size then [] else [location]
  | .folder entries => listEntries w (FolderRules.of w location :: chain) location entries
  | .link _ => []

/-- The locations of the files in the entries of a folder. -/
def listEntries (w : World) (chain : List FolderRules) (location : List String) :
    List (String × FileTree) → List (List String)
  | [] => []
  | (name, tree) :: rest =>
    (if isPassedOver chain location name tree.isFolder then []
      else listTree w chain (location ++ [name]) tree) ++
    listEntries w chain location rest

end

/-- The files inside a folder, by their paths from there. -/
def listFiles (w : World) (folder : List String) : List String :=
  match w.top.at? folder with
  | some (.folder entries) =>
    (listEntries w (chainOf w folder) folder entries).map fun location =>
      "/".intercalate (location.drop folder.length)
  | _ => []

end GuidedTour
