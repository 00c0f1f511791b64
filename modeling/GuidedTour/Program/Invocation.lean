import GuidedTour.Files.Folder
import GuidedTour.Program.Arguments
import GuidedTour.Program.Settings
import GuidedTour.Service.Completion

namespace GuidedTour

/-!
# The program

* `Client.service` — the service behind a client and what the network makes of its requests;
* `ProgramFailure` — why a command fails;
* `Command.run` — what a command prints, and what the files are like after it;
* `Invocation.outcome` — the same from the arguments on, with the exit code.
-/

/-- The service behind a client; it answers at once. -/
def Client.service (c : Client) (network : Request → Delivery) : Service :=
  fun _ request => ⟨false, .answers 0 (c.complete (network request))⟩

/-- Why a command fails. -/
inductive ProgramFailure where
  | settings (failure : SettingsFailure)
  | badSettings (problem : SettingsProblem)
  | noWorkspace (root : String)
  | service (failure : Failure)
  | unreadable (file : String)
  | discovery
  | generation
  | notWritten
  deriving DecidableEq, Repr

/-- A sentence on the failure. -/
def ProgramFailure.message : ProgramFailure → String
  | settings failure => failure.message
  | badSettings problem => problem.message
  | noWorkspace root => "Cannot open workspace " ++ root
  | service failure =>
    if failure.isConfiguration then
      failure.advice ++ " You can also set api_key under [generation] in tourgen.toml."
    else failure.advice ++ " (" ++ failure.message ++ ")"
  | unreadable file => "Failed to read " ++ file
  | discovery => "File discovery failed"
  | generation => "Tour generation failed"
  | notWritten => "Failed to write tour file"

/-- What the program works with: the files and where it stands among them, the variables, the syntax
trees and the network. -/
structure Invocation where
  world : World
  location : List String
  env : Environment
  parser : Parser
  network : Request → Delivery

namespace Invocation

/-- The settings of a workspace. -/
def settings (i : Invocation) (root : String) (config : Option String) :
    Except ProgramFailure Settings :=
  match Settings.load i.world i.location root config i.env with
  | .ok settings => .ok settings
  | .error failure => .error (.settings failure)

/-- The folder of a workspace. -/
def openFolder (i : Invocation) (root : String) : Except ProgramFailure (List String) :=
  match i.world.folder? i.location root with
  | some folder => .ok folder
  | none => .error (.noWorkspace root)

/-- What is printed about a run. -/
def reportJson (status : String) (steps failedBatches : Nat) (path : Option String) : Json :=
  .object ([("status", .string status), ("steps", .nat steps),
    ("failed_batches", .nat failedBatches)] ++ Json.optionalMember "path" .string path)

/-- The tour of a workspace is made and, unless the run is dry, written. -/
def generate (i : Invocation) (root : String) (settings : Settings) (dryRun : Bool) :
    Except ProgramFailure (Json × World) := do
  if let some problem := settings.problem? then throw (.badSettings problem)
  let folder ← i.openFolder root
  let client ← match Client.ofConfig settings.service with
    | .ok client => pure client
    | .error failure => throw (.service failure)
  let around : Surroundings := ⟨client.service i.network, fun _ => false⟩
  let run := GuidedTour.generate around (i.world.workspace folder) i.parser settings.runOptions
  match (run.outcome false).1 with
  | .error .cancelled => pure (reportJson "cancelled" 0 0 none, i.world)
  | .error _ => throw .generation
  | .ok report =>
    if dryRun then
      pure (reportJson "completed" report.stepCount report.failedBatches none, i.world)
    else match i.world.writeTour folder report.tour with
      | .error _ => throw .notWritten
      | .ok (world, path) =>
        pure (reportJson "completed" report.stepCount report.failedBatches (some path), world)

/-- The files that a tour of a workspace looks at. -/
def discover (i : Invocation) (root : String) (settings : Settings) :
    Except ProgramFailure Json := do
  let folder ← i.openFolder root
  match (i.world.workspace folder).discover? settings.discovery with
  | some files => pure (.texts files)
  | none => throw .discovery

/-- The outline of one file. -/
def analyze (i : Invocation) (file : String) (language : Option String) :
    Except ProgramFailure Json :=
  match i.world.read i.location file with
  | .error _ => .error (.unreadable file)
  | .ok content =>
    let tag := language.getD (Language.ofPath file.toList).tag
    .ok (Outline.ofFile i.parser (file.mapText Text.slashed) tag content).json

/-- What a command prints, and the files after it. -/
def run (i : Invocation) : Command → Except ProgramFailure (Json × World)
  | .generate root title limit maxSteps model baseUrl config dryRun strictLines => do
    let s ← i.settings root config
    let settings : Settings :=
      { title := title.or s.title
        service :=
          { s.service with
            model := model.getD s.service.model
            baseUrl := baseUrl.getD s.service.baseUrl }
        discovery := { s.discovery with limit := limit.getD s.discovery.limit }
        batches := s.batches
        review :=
          { maxSteps := maxSteps.getD s.review.maxSteps
            strictLineBounds := strictLines || s.review.strictLineBounds } }
    i.generate root settings dryRun
  | .discover root limit config => do
    let s ← i.settings root config
    let printed ← i.discover root
      { s with discovery := { s.discovery with limit := limit.getD s.discovery.limit } }
    pure (printed, i.world)
  | .analyze file language => do
    let printed ← i.analyze file language
    pure (printed, i.world)

end Invocation

/-- What becomes of the program. -/
structure ProgramOutcome where
  exitCode : Nat
  printed : Option Json
  failure : Option ProgramFailure
  world : World

/-- The program with some arguments. -/
def Invocation.outcome (i : Invocation) (arguments : List String) : ProgramOutcome :=
  match Command.ofArguments arguments with
  | .error .misuse => ⟨2, none, none, i.world⟩
  | .error _ => ⟨0, none, none, i.world⟩
  | .ok command =>
    match i.run command with
    | .ok (printed, world) => ⟨0, some printed, none, world⟩
    | .error failure => ⟨1, none, some failure, i.world⟩

end GuidedTour
