import GuidedTour.Files.World
import GuidedTour.Path
import GuidedTour.Run.Generation
import GuidedTour.Service.Config
import GuidedTour.Toml.Reader

namespace GuidedTour

/-!
# Settings

* `Settings` — all that can be set, with defaults;
* `Settings.ofText?` — the settings in a file;
* `Settings.overridden` — the settings after the variables of an environment were looked at;
* `Settings.load` — the settings of a workspace;
* `Settings.problem?` — the first thing that is wrong with them.
-/

/-- All that can be set. -/
structure Settings where
  title : Option String := none
  service : ServiceConfig := {}
  discovery : DiscoveryOptions := {}
  batches : BatchOptions := {}
  review : ReviewOptions := {}
  deriving Inhabited

/-- What is wrong with settings. -/
inductive SettingsProblem where
  | batches (problem : BatchProblem)
  | noSteps
  deriving DecidableEq, Repr

/-- A sentence on what is wrong. -/
def SettingsProblem.message : SettingsProblem → String
  | batches problem => "Invalid orchestrator settings: " ++ problem.message
  | noSteps => "max_steps must be > 0"

/-- Why settings cannot be loaded. -/
inductive SettingsFailure where
  | unreadable (path : String)
  | invalid (path : String)
  deriving DecidableEq, Repr

/-- A sentence on the failure. -/
def SettingsFailure.message : SettingsFailure → String
  | unreadable path => "Failed to read settings " ++ path
  | invalid path => "Invalid settings in " ++ path

/-- The greatest timeout of a batch and the greatest number of steps that a variable can set. -/
def maxBatchTimeout : Nat := 600

@[inherit_doc maxBatchTimeout]
def maxSteps : Nat := 500

/-- The number after a variable was looked at; unless it is set nothing changes. -/
def overriddenNat (raw : Option String) (current least most : Nat) : Nat :=
  match raw with
  | some text => clampedNat natMax64 (some text) current least most
  | none => current

namespace Settings

/-- The settings after the variables of an environment. -/
def overridden (s : Settings) (env : Environment) : Settings :=
  { s with
    service := s.service.overridden env
    batches :=
      { batchSize := overriddenNat (env "TOURGEN_BATCH_SIZE") s.batches.batchSize 1 maxBatchSize
        concurrency :=
          overriddenNat (env "TOURGEN_CONCURRENCY") s.batches.concurrency 1 maxConcurrency
        timeout :=
          overriddenNat (env "TOURGEN_BATCH_TIMEOUT_SECS") s.batches.timeout 1 maxBatchTimeout }
    review :=
      { s.review with
        maxSteps := overriddenNat (env "TOURGEN_MAX_STEPS") s.review.maxSteps 1 maxSteps } }

/-- The first thing that is wrong with the settings. -/
def problem? (s : Settings) : Option SettingsProblem :=
  (s.batches.problem?.map .batches).or (if s.review.maxSteps == 0 then some .noSteps else none)

/-- The fields of the settings in their order. -/
def fields : List (List String) :=
  [["title"], ["generation"], ["discovery"], ["orchestrator"], ["validation"]]

/-- A section with some fields. What an array has beyond the fields does not count. -/
def cutSection (fields : List (List String)) : Document → Document
  | .array items => .array (items.take fields.length)
  | d => d

/-- Settings from a document; what is missing has its default. -/
def ofDocument? (d : Document) : Option Settings := do
  let r ← d.record? fields
  let title ← r.nullable "title" (·.text?)
  let service ← r.defaulted "generation" {} fun d =>
    ServiceConfig.ofDocument? (cutSection ServiceConfig.fields d)
  let discovery ← r.defaulted "discovery" {} fun d =>
    DiscoveryOptions.ofDocument? (cutSection DiscoveryOptions.fields d)
  let batches ← r.defaulted "orchestrator" {} fun d =>
    BatchOptions.ofDocument? (cutSection BatchOptions.fields d)
  let review ← r.defaulted "validation" {} fun d =>
    ReviewOptions.ofDocument? (cutSection ReviewOptions.fields d)
  pure { title, service, discovery, batches, review }

/-- The settings that a text spells. -/
def ofText? (s : String) : Option Settings :=
  (Toml.parse s.toList).bind fun t => ofDocument? t.document

/-- Settings as JSON; the key of the service is kept to itself. -/
def json (s : Settings) : Json :=
  .object [("title", .orNull .string s.title), ("generation", s.service.json),
    ("discovery", s.discovery.json), ("orchestrator", s.batches.json),
    ("validation", s.review.json)]

/-- The settings file at the root of a workspace. -/
def fileName : String := "tourgen.toml"

/-- The settings in a file. -/
def ofFile (w : World) (location : List String) (path : String) : Except SettingsFailure Settings :=
  match w.read location path with
  | .error _ => .error (.unreadable path)
  | .ok text =>
    match ofText? text with
    | some settings => .ok settings
    | none => .error (.invalid path)

/-- Whether a path leads to a file. -/
def isFileAt (w : World) (location : List String) (path : String) : Bool :=
  match w.find location path with
  | .ok (_, tree) => tree.isFile
  | .error _ => false

/-- The settings of a workspace before any variable is looked at: those of the file that is named,
else of the file at the root, else the defaults. -/
def stored (w : World) (location : List String) (root : String) (named : Option String) :
    Except SettingsFailure Settings :=
  match named with
  | some path => ofFile w location path
  | none =>
    let path := String.ofList (Path.join root.toList fileName.toList)
    if isFileAt w location path then ofFile w location path else .ok {}

/-- The settings of a workspace. -/
def load (w : World) (location : List String) (root : String) (named : Option String)
    (env : Environment) : Except SettingsFailure Settings :=
  (stored w location root named).map (·.overridden env)

/-- What the settings say about a run. -/
def runOptions (s : Settings) : RunOptions :=
  { title := s.title, model := none, discovery := s.discovery, batches := s.batches
    review := s.review }

end Settings

end GuidedTour
