namespace GuidedTour

/-!
# Failures of the text service

* `Failure` — why no text came back;
* `Failure.message` — the failure with its detail, for a log;
* `Failure.advice` — a sentence for the person who runs the program.
-/

/-- Why the service gave no text. -/
inductive Failure where
  | authentication (detail : String)
  | rateLimited (detail : String)
  | unreachable (detail : String)
  | malformedResponse (detail : String)
  | timeout (seconds : Nat)
  | other (detail : String)
  | missingCredential (detail : String)
  deriving DecidableEq, Repr, Inhabited

namespace Failure

/-- The failure with its detail. -/
def message : Failure → String
  | authentication detail => "Authentication failed: " ++ detail
  | rateLimited detail => "Rate limited: " ++ detail
  | unreachable detail => "Service unreachable: " ++ detail
  | malformedResponse detail => "Malformed response: " ++ detail
  | timeout seconds => "Request timed out after " ++ toString seconds ++ "s"
  | other detail => "Generation failed: " ++ detail
  | missingCredential detail => "Missing credential: " ++ detail

/-- What to tell the person who runs the program. -/
def advice : Failure → String
  | authentication _ =>
    "The generation service rejected the API key. Check your credentials."
  | rateLimited _ =>
    "The generation service is rate limiting requests. Wait a moment and try again."
  | unreachable _ =>
    "Could not reach the generation service. Check the base URL and your network."
  | malformedResponse _ => "The generation service returned an empty or unreadable response."
  | timeout _ => "The generation service did not answer in time."
  | other _ => "The generation service reported an unexpected error."
  | missingCredential _ => "No API key is configured. Set TOURGEN_API_KEY or OPENAI_API_KEY."

/-- Whether the failure lies in the configuration and not in a call. -/
def isConfiguration : Failure → Bool
  | missingCredential _ => true
  | _ => false

end Failure

end GuidedTour
