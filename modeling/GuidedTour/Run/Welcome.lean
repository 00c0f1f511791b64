import GuidedTour.Run.Context
import GuidedTour.Run.Course
import GuidedTour.Tour.Answer
import GuidedTour.Tour.Digest
import GuidedTour.Tour.Review

namespace GuidedTour.Welcome

/-!
# The first step of a tour

Every tour opens with a welcome. The service is asked to write it; what it writes is mended, and
where it writes nothing the welcome is put together from the README and the summary of the project.

* `file` — the file that the welcome points at;
* `fallback` — the welcome without the service;
* `mend` — the welcome from a draft of the service: only what is unfit is replaced;
* `request` — what the service is asked;
* `ofOutcome` — the welcome that an outcome leads to;
* `course`, `write` — the service is asked for the welcome;
* `synthesize` — the welcome also where there is no service to ask.
-/

/-- The file that the welcome points at: the README, else the first file of the project. -/
def file (p : Project) (c : Context) : String :=
  ((c.readme.map ReadmeText.file).or (p.files.head?.map Outline.file)).getD ""

/-- How many lines of the README the fallback shows. -/
def maxReadmeLines : Nat := 40

/-- The title of a welcome that has none of its own. -/
def title (c : Context) : String := welcomeMarker ++ " to " ++ c.name

/-- The first lines of a text. -/
def firstLines (s : String) : String :=
  s.mapText fun cs => Text.joinWith ['\n'] ((Text.lines cs).take maxReadmeLines)

/-- The text of a welcome that has none of its own. -/
def description (p : Project) (c : Context) : String :=
  let body := match c.readme.filter fun readme => !readme.cleaned.isEmpty with
    | some readme => firstLines readme.cleaned
    | none => "This project has " ++ p.summary
  "\n\n".intercalate (["# " ++ c.name] ++ c.description.toList ++ [body])

/-- The welcome without the service. -/
def fallback (p : Project) (c : Context) : Draft :=
  { title := title c, file := file p c, line := some 1, description := description p c
    selection := none }

/-- The path that a draft names when it has nothing better. -/
def genericFile : String := "README.md"

/-- A file name that is fit for a welcome. -/
def mendFile (p : Project) (c : Context) (given : String) : String :=
  let named := given.trimBlanks
  if named.isEmpty || named == genericFile then file p c else given

/-- A title that welcomes the reader. -/
def mendTitle (c : Context) (given : String) : String :=
  let named := given.trimBlanks
  if named.isEmpty then title c
  else if named.hasText welcomeMarker then named
  else welcomeMarker ++ ": " ++ named

/-- A line of a file, or the first. -/
def mendLine : Option Int → Int
  | some line => if 1 ≤ line then line else 1
  | none => 1

/-- The welcome that a draft becomes. -/
def mend (p : Project) (c : Context) (d : Draft) : Draft :=
  { d with
    file := mendFile p c d.file
    title := mendTitle c d.title
    description := if d.description.isAllBlank then description p c else d.description
    line := some (mendLine d.line) }

/-- What the service is told before it writes the welcome. -/
def systemPrompt : String := "\n".intercalate [
  "You are writing the first step of a guided tour of a codebase: the welcome.",
  "You receive the project's README (cleaned), its declared purpose and a summary",
  "of its structure.",
  "",
  "Respond with ONLY a JSON array containing exactly one object:",
  "[\x7b\"title\": string, \"file\": string, \"line\": number, \"description\": string\x7d]",
  "",
  "Rules:",
  "- The title starts with \"Welcome\".",
  "- Use the requested file and line 1.",
  "- The description is Markdown: what the project is for, how it is organized and",
  "  where the tour will go next. Keep it under 200 words."]

/-- How many entry points are shown to the service. -/
def maxEntryPoints : Nat := 3

/-- What the service is told about the project. -/
def userPrompt (p : Project) (c : Context) : String :=
  let entryPoints := p.entryPoints.take maxEntryPoints
  "Project: " ++ c.name ++ "\n" ++
    (match c.description with
      | some purpose => "Purpose: " ++ purpose ++ "\n"
      | none => "") ++
    "Structure: " ++ p.summary ++ "\n" ++
    (if entryPoints.isEmpty then ""
      else "Entry points (JSON digest): " ++ p.digest entryPoints ++ "\n") ++
    (match c.readme with
      | some readme => "\nREADME (" ++ readme.file ++ "):\n" ++ readme.cleaned ++ "\n"
      | none => "\nThe project has no README.\n") ++
    "\nRequested file: " ++ file p c

/-- What the service is asked. -/
def request (p : Project) (c : Context) (model : Option String) : Request :=
  .prompt model systemPrompt (userPrompt p c)

/-- The welcome that an outcome leads to; a crash leads to none. -/
def ofOutcome (p : Project) (c : Context) : Outcome → Option Draft
  | .crashed => none
  | .failed _ => some (fallback p c)
  | .answered text =>
    match (Answer.drafts text.toList).head? with
    | some d => some (mend p c d)
    | none => some (fallback p c)

/-- The service is asked for the welcome. -/
def course (p : Project) (c : Context) (model : Option String) : Course (Option Draft) := do
  let outcomes ← Course.ask [request p c model]
  pure (outcomes.head?.bind (ofOutcome p c))

/-- The welcome asked for, and what came of it. -/
def write (around : Surroundings) (p : Project) (c : Context) (model : Option String)
    (deadline : Nat) (j : Journal) : Journal × Option Draft :=
  (course p c model).execute around deadline j

/-- The welcome with a service to ask or with none. -/
def synthesize (around : Option Surroundings) (p : Project) (c : Context) (model : Option String)
    (deadline : Nat) (j : Journal) : Journal × Option Draft :=
  match around with
  | some around => write around p c model deadline j
  | none => (j, some (fallback p c))

end GuidedTour.Welcome
