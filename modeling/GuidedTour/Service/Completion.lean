import GuidedTour.Json.Reader
import GuidedTour.Service.Config
import GuidedTour.Service.Failure
import GuidedTour.Service.Message
import GuidedTour.Text.Basic

namespace GuidedTour

/-!
# Asking for one completion

* `Client.ofConfig` — a client needs a key;
* `Client.body` — what a request sends;
* `Delivery` — what the network makes of a request;
* `Response.ofBody` — the text in the body of a successful reply: the content of the first choice,
  if it is not blank;
* `Failure.ofStatus` — what an unsuccessful status means;
* `Client.complete` — the outcome of a request.
-/

/-- A connection with a key. -/
structure Client where
  config : ServiceConfig
  apiKey : String
  deriving Inhabited

/-- What the network makes of a request. The details of `refused`, `dropped`, `broken` and
`unsendable` are the network's own words. -/
inductive Delivery where
  | refused (detail : String)
  | dropped (detail : String)
  | broken (detail : String)
  | unsendable (detail : String)
  | reply (status : Nat) (body : String)

namespace Client

/-- A client for some settings. -/
def ofConfig (config : ServiceConfig) : Except Failure Client :=
  if config.hasCredential then .ok ⟨config, (config.apiKey.getD "").trimBlanks⟩
  else .error (.missingCredential "no API key configured")

/-- The header that carries the key. -/
def authorization (c : Client) : String := "Bearer " ++ c.apiKey

/-- Whether the key can stand in a header: it has no control character but the tab. -/
def canSend (c : Client) : Bool :=
  c.apiKey.toList.all fun ch => (32 ≤ ch.toNat && ch.toNat != 127) || ch == '\t'

/-- What a request sends. -/
def body (c : Client) (r : Request) : Json :=
  .object [("model", .string (r.model.getD c.config.model)),
    ("messages", .array (r.messages.map Message.json)),
    ("temperature", .number (.real c.config.temperature.singleAsWritten)),
    ("max_tokens", .nat c.config.maxTokens)]

end Client

/-- The content of a message of a reply. -/
def contentOf? (d : Document) : Option (Option String) := do
  let r ← d.record? [["content"]]
  r.optional "content" (·.text?)

/-- The content of a choice of a reply. -/
def choiceOf? (d : Document) : Option (Option String) := do
  let r ← d.record? [["message"]]
  let content ← r.optional "message" contentOf?
  pure content.join

/-- The choices and the usage of a reply. -/
def replyOf? (d : Document) : Option (List (Option String) × Option TokenUsage) := do
  let r ← d.record? [["choices"], ["usage"]]
  let choices ← r.defaulted "choices" [] (·.list? choiceOf?)
  let usage ← r.optional "usage" TokenUsage.ofReply?
  pure (choices, usage)

/-- The detail of a reply that cannot be read; what made it so is said by the reader. -/
def invalidJson : String := "invalid JSON"

/-- The response in the body of a successful reply. -/
def Response.ofBody (body : String) : Except Failure Response :=
  match (Document.parse body.toList).bind replyOf? with
  | none => .error (.malformedResponse invalidJson)
  | some (choices, usage) =>
    match choices.head?.join.filter fun text => !text.isAllBlank with
    | some text => .ok ⟨text, usage⟩
    | none => .error (.malformedResponse "empty completion")

/-- The message of an error that a reply holds. -/
def errorMessageOf? (d : Document) : Option String := do
  let r ← d.record? [["error"]]
  r.required "error" fun detail => do
    let r ← detail.record? [["message"]]
    r.required "message" (·.text?)

/-- The longest part of a body that goes into an error. -/
def maxErrorChars : Nat := 200

/-- What an unsuccessful status means. The detail is the error that the body holds, else the
beginning of the body. -/
def Failure.ofStatus (status : Nat) (body : String) : Failure :=
  let found := (Document.parse body.toList).bind errorMessageOf?
  let detail := "HTTP " ++ toString status ++ ": " ++
    found.getD (body.mapText fun s => Text.truncate maxErrorChars (Text.trim s))
  if status == 401 || status == 403 then .authentication detail
  else if status == 429 then .rateLimited detail
  else if status == 502 || status == 503 || status == 504 then .unreachable detail
  else .other detail

/-- What a reply means. -/
def Response.ofReply (status : Nat) (body : String) : Except Failure Response :=
  if 200 ≤ status && status < 300 then Response.ofBody body else .error (.ofStatus status body)

/-- The outcome of a request. -/
def Client.complete (c : Client) (delivery : Delivery) : Except Failure Response :=
  if !c.canSend then .error (.other "builder error")
  else match delivery with
    | .refused detail => .error (.unreachable detail)
    | .dropped detail => .error (.other detail)
    | .broken detail => .error (.malformedResponse detail)
    | .unsendable detail => .error (.other detail)
    | .reply status body => Response.ofReply status body

end GuidedTour
