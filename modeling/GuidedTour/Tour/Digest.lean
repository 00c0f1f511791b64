import GuidedTour.Json.Printer
import GuidedTour.Outline.Basic

namespace GuidedTour

/-!
# Digests for the text service

* `Element.digest` — an element with its methods and classes by name and line;
* `Outline.digest` — the first elements, imports and exports of a file;
* `Project.digest` — the digests of some files, as one line of JSON;
* `Project.summary` — a sentence on the whole project.
-/

/-- How much of a file goes into its digest. -/
def maxDigestElements : Nat := 40

@[inherit_doc maxDigestElements]
def maxDigestMembers : Nat := 20

@[inherit_doc maxDigestElements]
def maxDigestStatements : Nat := 8

/-- A list under a key, left out where it is empty. -/
def listMember (key : String) (items : List Json) : List (String × Json) :=
  if items.isEmpty then [] else [(key, .array items)]

/-- A member of a class by name and line. -/
def Element.memberDigest (e : Element) : Json :=
  .object [("name", .string e.name), ("line", .nat e.startLine)]

/-- The first members of a list. -/
def memberDigests (members : List Element) : List Json :=
  (members.take maxDigestMembers).map Element.memberDigest

/-- An element with its members. The end line is given where it lies behind the start line. -/
def Element.digest (e : Element) : Json :=
  .object ([("kind", .string e.kind.word), ("name", .string e.name), ("line", .nat e.startLine)] ++
    (if e.startLine < e.endLine then [("endLine", .nat e.endLine)] else []) ++
    listMember "methods" (memberDigests (e.children.filter fun c => !c.kind.isClass)) ++
    listMember "classes" (memberDigests (e.children.filter fun c => c.kind.isClass)))

/-- A file in short. -/
def Outline.digest (o : Outline) (isEntryPoint : Bool) : Json :=
  .object ([("file", .string o.file), ("language", .string o.language)] ++
    (if isEntryPoint then [("entryPoint", .bool true)] else []) ++
    [("lines", .nat o.lineCount),
      ("elements", .array ((o.elements.take maxDigestElements).map Element.digest))] ++
    listMember "imports" ((o.imports.take maxDigestStatements).map .string) ++
    listMember "exports" ((o.exports.take maxDigestStatements).map .string))

/-- The digests of some files as a value; a path that is no file of the project is passed over. -/
def Project.digestValue (p : Project) (files : List String) : Json :=
  .array ((files.filterMap p.file?).map fun o => o.digest (p.isEntryPoint o.file))

/-- The digests of some files as one line of JSON. -/
def Project.digest (p : Project) (files : List String) : String :=
  String.ofList (p.digestValue files).compact

/-- A sentence on the size, the languages and the entry points of a project. -/
def Project.summary (p : Project) : String :=
  let count := p.files.length
  let languages := p.languages
  toString count ++ " analyzed file" ++ (if count == 1 then "" else "s") ++
    (if languages.isEmpty then "" else " (" ++ ", ".intercalate languages ++ ")") ++ "." ++
    (if p.entryPoints.isEmpty then ""
      else " Entry points: " ++ ", ".intercalate p.entryPoints ++ ".")

end GuidedTour
