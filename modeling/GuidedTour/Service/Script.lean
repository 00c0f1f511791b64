import GuidedTour.Run.Journal
import GuidedTour.Text.Basic

namespace GuidedTour

/-!
# Services that follow a script

* `ScriptRule` — what is done with the requests that hold a text;
* `Script.service` — the service that follows the first rule that applies. Without one it answers
  with an empty list.
-/

/-- What is done with the requests that hold a text; without a text the rule applies to all. -/
structure ScriptRule where
  needle : Option String
  behaviour : Behaviour

/-- Whether a rule applies to a request. -/
def ScriptRule.covers (r : ScriptRule) (request : Request) : Bool :=
  match r.needle with
  | some needle => request.contents.hasText needle
  | none => true

/-- What is done with a request to which no rule applies. -/
def defaultBehaviour : Behaviour := ⟨false, .answers 0 (.ok ⟨"[]", none⟩)⟩

/-- Rules, of which the first that applies counts. -/
abbrev Script := List ScriptRule

/-- The service that follows a script. -/
def Script.service (s : Script) : Service := fun _ request =>
  ((s.find? fun r => r.covers request).map ScriptRule.behaviour).getD defaultBehaviour

end GuidedTour
