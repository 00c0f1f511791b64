import GuidedTour.Json.Record
import GuidedTour.Text.Basic

namespace GuidedTour

/-!
# How to reach the text service

* `ServiceConfig` — address, model, key and limits, with defaults;
* `clamped` — a number out of a variable, held inside bounds;
* `ServiceConfig.overridden` — the settings after the variables of an environment were looked at.
  A variable that is not set changes nothing but that limits are held inside their bounds.
-/

/-- Variables by name. -/
abbrev Environment := String → Option String

/-- The default address and model. -/
def defaultBaseUrl : String := "https://api.openai.com/v1"

@[inherit_doc defaultBaseUrl]
def defaultModel : String := "gpt-4o-mini"

/-- Three tenths in 32 bits. -/
def defaultTemperature : Binary := BinaryFormat.single.round false 3 10

/-- The connection to the text service. -/
structure ServiceConfig where
  baseUrl : String := defaultBaseUrl
  model : String := defaultModel
  apiKey : Option String := none
  requestTimeout : Nat := 90
  maxTokens : Nat := 2048
  temperature : Binary := defaultTemperature
  deriving DecidableEq, Inhabited

/-- The number that a text holds if it holds one between `low` and `high`, else a default; either
way held between `least` and `most`. -/
def clamped (low high : Int) (raw : Option String) (default least most : Int) : Int :=
  let read := raw.bind fun s => Numeral.readInt low high (Text.trim s.toList)
  max least (min (read.getD default) most)

/-- A natural number of at most `bound` out of a variable. -/
def clampedNat (bound : Nat) (raw : Option String) (default least most : Nat) : Nat :=
  (clamped 0 bound raw default least most).toNat

/-- The text of a variable without the blanks around it, if something is left. -/
def Environment.text? (env : Environment) (name : String) : Option String :=
  ((env name).map String.trimBlanks).filter fun s => !s.isEmpty

/-- The longest timeout of a request in seconds, and the most tokens of an answer. -/
def maxRequestTimeout : Nat := 600

@[inherit_doc maxRequestTimeout]
def maxAnswerTokens : Nat := 32768

namespace ServiceConfig

/-- The settings after the variables of an environment. -/
def overridden (c : ServiceConfig) (env : Environment) : ServiceConfig :=
  { c with
    baseUrl := (env.text? "TOURGEN_BASE_URL").getD c.baseUrl
    model := (env.text? "TOURGEN_MODEL").getD c.model
    apiKey := ((env.text? "TOURGEN_API_KEY").or (env.text? "OPENAI_API_KEY")).or c.apiKey
    requestTimeout := clampedNat natMax64 (env "TOURGEN_REQUEST_TIMEOUT_SECS") c.requestTimeout 1
      maxRequestTimeout
    maxTokens := clampedNat natMax32 (env "TOURGEN_MAX_TOKENS") c.maxTokens 1 maxAnswerTokens }

/-- The base address without slashes at its end. -/
def trimmedBase (c : ServiceConfig) : String :=
  c.baseUrl.mapText fun s => (s.reverse.dropWhile (· == '/')).reverse

/-- The address that completions are asked for at. -/
def completionsUrl (c : ServiceConfig) : String := c.trimmedBase ++ "/chat/completions"

/-- Whether there is a key that is not blank. -/
def hasCredential (c : ServiceConfig) : Bool :=
  match c.apiKey with
  | some key => !key.isAllBlank
  | none => false

/-- The fields of the settings in their order. -/
def fields : List (List String) :=
  [["base_url"], ["model"], ["api_key"], ["request_timeout_secs"], ["max_tokens"], ["temperature"]]

/-- Settings from a document; what is missing has its default. -/
def ofDocument? (d : Document) : Option ServiceConfig := do
  let r ← d.record? fields
  let baseUrl ← r.defaulted "base_url" defaultBaseUrl (·.text?)
  let model ← r.defaulted "model" defaultModel (·.text?)
  let apiKey ← r.nullable "api_key" (·.text?)
  let requestTimeout ← r.defaulted "request_timeout_secs" 90 (·.nat? natMax64)
  let maxTokens ← r.defaulted "max_tokens" 2048 (·.nat? natMax32)
  let temperature ← r.defaulted "temperature" defaultTemperature (·.single?)
  pure { baseUrl, model, apiKey, requestTimeout, maxTokens, temperature }

/-- Settings as JSON; the key is kept to itself. -/
def json (c : ServiceConfig) : Json :=
  .object [("base_url", .string c.baseUrl), ("model", .string c.model),
    ("request_timeout_secs", .nat c.requestTimeout), ("max_tokens", .nat c.maxTokens),
    ("temperature", .number (.real c.temperature.singleAsWritten))]

end ServiceConfig

end GuidedTour
