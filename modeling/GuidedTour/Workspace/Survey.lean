import GuidedTour.Outline.Parser
import GuidedTour.Outline.Specifier
import GuidedTour.Workspace.Basic

namespace GuidedTour

/-!
# Outlines of many files

* `Project.ofOutlines` — the project that some outlines make: which of the files are entry points,
  and what they import;
* `Workspace.survey` — the project that the files of a workspace make. A file without a text is
  passed over.
-/

/-- The project that outlines make. -/
def Project.ofOutlines (root : String) (outlines : List Outline) : Project :=
  let imported := outlines.map fun o => (o.file, moduleSpecifiers o.imports)
  { root
    files := outlines
    entryPoints := orderedTexts ((outlines.map Outline.file).filter isEntryPath)
    dependencies := orderedEntries (imported.filter fun entry => !entry.2.isEmpty) }

/-- The outline of a file of a workspace. -/
def Workspace.outline? (w : Workspace) (parser : Parser) (file : String) : Option Outline :=
  (w.textOf? file).map fun content =>
    Outline.ofFile parser file (Language.ofPath file.toList).tag content

/-- The project that some files of a workspace make. -/
def Workspace.survey (w : Workspace) (parser : Parser) (files : List String) : Project :=
  .ofOutlines w.root (files.filterMap (w.outline? parser))

end GuidedTour
