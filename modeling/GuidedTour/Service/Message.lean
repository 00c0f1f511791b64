import GuidedTour.Json.Record

namespace GuidedTour

/-!
# Conversations with the text service

* `Message`, `Request` — who says what, and the conversation that is sent;
* `Response` — the text that comes back, with the tokens it took.
-/

/-- Who speaks. -/
inductive Role where
  | system | user | assistant
  deriving DecidableEq, Repr, Inhabited

namespace Role

/-- The word for a role. -/
def word : Role → String
  | system => "system"
  | user => "user"
  | assistant => "assistant"

/-- The role that a word stands for. -/
def ofWord? (s : String) : Option Role := [system, user, assistant].find? fun r => r.word == s

/-- A role from a document. -/
def ofDocument? (d : Document) : Option Role := d.word? ofWord?

end Role

/-- A message of a conversation. -/
structure Message where
  role : Role
  content : String
  deriving DecidableEq, Inhabited

namespace Message

/-- A message as JSON. -/
def json (m : Message) : Json :=
  .object [("role", .string m.role.word), ("content", .string m.content)]

/-- A message from a document. -/
def ofDocument? (d : Document) : Option Message := do
  let r ← d.record? [["role"], ["content"]]
  let role ← r.required "role" Role.ofDocument?
  let content ← r.required "content" (·.text?)
  pure ⟨role, content⟩

end Message

/-- A conversation to be continued; without a model the service uses its own. -/
structure Request where
  model : Option String
  messages : List Message
  deriving DecidableEq, Inhabited

namespace Request

/-- A system prompt and one message of the user. -/
def prompt (model : Option String) (system user : String) : Request :=
  ⟨model, [⟨.system, system⟩, ⟨.user, user⟩]⟩

/-- A request as JSON, without a model that is not named. -/
def json (r : Request) : Json :=
  .object ((match r.model with
    | some model => [("model", .string model)]
    | none => []) ++ [("messages", .array (r.messages.map Message.json))])

/-- A request from a document. -/
def ofDocument? (d : Document) : Option Request := do
  let r ← d.record? [["model"], ["messages"]]
  let model ← r.nullable "model" (·.text?)
  let messages ← r.required "messages" (·.list? Message.ofDocument?)
  pure ⟨model, messages⟩

/-- The contents of all messages, one after another on lines of their own. -/
def contents (r : Request) : String := "\n".intercalate (r.messages.map Message.content)

end Request

/-- The tokens that a completion took. -/
structure TokenUsage where
  promptTokens : Nat
  completionTokens : Nat
  deriving DecidableEq, Repr, Inhabited

namespace TokenUsage

/-- All tokens together, at most what 32 bits hold. -/
def total (u : TokenUsage) : Nat := min (u.promptTokens + u.completionTokens) natMax32

/-- The tokens as JSON. -/
def json (u : TokenUsage) : Json :=
  .object [("prompt_tokens", .nat u.promptTokens), ("completion_tokens", .nat u.completionTokens)]

/-- The fields of a usage in their order. -/
def fields : List (List String) := [["prompt_tokens"], ["completion_tokens"]]

/-- The tokens from a document. -/
def ofDocument? (d : Document) : Option TokenUsage := do
  let r ← d.record? fields
  let promptTokens ← r.required "prompt_tokens" (·.nat? natMax32)
  let completionTokens ← r.required "completion_tokens" (·.nat? natMax32)
  pure ⟨promptTokens, completionTokens⟩

/-- The tokens from a document where each number may be missing. -/
def ofReply? (d : Document) : Option TokenUsage := do
  let r ← d.record? fields
  let promptTokens ← r.defaulted "prompt_tokens" 0 (·.nat? natMax32)
  let completionTokens ← r.defaulted "completion_tokens" 0 (·.nat? natMax32)
  pure ⟨promptTokens, completionTokens⟩

end TokenUsage

/-- The text that the service answers with. -/
structure Response where
  text : String
  usage : Option TokenUsage
  deriving DecidableEq, Inhabited

namespace Response

/-- A response as JSON, without a usage that is not known. -/
def json (r : Response) : Json :=
  .object ([("text", .string r.text)] ++ (match r.usage with
    | some usage => [("usage", usage.json)]
    | none => []))

/-- A response from a document. -/
def ofDocument? (d : Document) : Option Response := do
  let r ← d.record? [["text"], ["usage"]]
  let text ← r.required "text" (·.text?)
  let usage ← r.nullable "usage" TokenUsage.ofDocument?
  pure ⟨text, usage⟩

end Response

end GuidedTour
