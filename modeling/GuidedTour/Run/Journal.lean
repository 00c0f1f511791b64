import GuidedTour.Run.Milestone
import GuidedTour.Service.Failure
import GuidedTour.Service.Message

namespace GuidedTour

/-!
# What happens during a run

A run asks a service whose answers take time, and may be called off at any moment. Time is counted
in seconds from the start of the run, and only waiting takes time.

* `Behaviour`, `Service` — what the service does with each request;
* `Ending.within` — how a request ends under a deadline, and after how long;
* `Exchange` — a request, when it was made, and when and how it was over;
* `Journal` — all that happened, in order, with the time and the flag that calls the run off;
* `Journal.report`, `Journal.askAll`, `Journal.await` — what a run does to its journal;
* `Journal.maxInFlight` — how many requests were being answered at once.
-/

/-- What becomes of a request that nobody gives up on. -/
inductive Ending where
  | crashesAfter (delay : Nat)
  | never
  | answers (delay : Nat) (result : Except Failure Response)

/-- A crash as soon as the request is made. -/
def Ending.crashes : Ending := .crashesAfter 0

/-- What the service does with a request. With `cancels` the run is called off meanwhile. -/
structure Behaviour where
  cancels : Bool
  ending : Ending

/-- A service, by the number of earlier requests and the request itself. -/
abbrev Service := Nat → Request → Behaviour

/-- How a request ended. -/
inductive Outcome where
  | crashed
  | failed (failure : Failure)
  | answered (text : String)
  deriving DecidableEq, Inhabited

namespace Outcome

/-- Whether the request crashed. -/
def isCrash : Outcome → Bool
  | crashed => true
  | _ => false

/-- The text that came back. -/
def text? : Outcome → Option String
  | answered text => some text
  | _ => none

/-- The outcome that a result stands for. -/
def ofResult : Except Failure Response → Outcome
  | .ok response => answered response.text
  | .error failure => failed failure

end Outcome

/-- How a request ends when it is given up after `deadline` seconds, and after how many seconds.
What comes at the deadline itself still counts. -/
def Ending.within (deadline : Nat) : Ending → Nat × Outcome
  | crashesAfter delay =>
    if delay ≤ deadline then (delay, .crashed) else (deadline, .failed (.timeout deadline))
  | never => (deadline, .failed (.timeout deadline))
  | answers delay result =>
    if delay ≤ deadline then (delay, .ofResult result)
    else (deadline, .failed (.timeout deadline))

/-- A request that was made. -/
structure Exchange where
  request : Request
  start : Nat
  finish : Nat
  outcome : Outcome
  deriving DecidableEq, Inhabited

/-- What can happen in a run. -/
inductive Event where
  | reached (milestone : Milestone)
  | asked (exchange : Exchange)
  | calledOff
  deriving DecidableEq, Inhabited

/-- All that happened so far. -/
structure Journal where
  events : List Event
  now : Nat
  isCancelled : Bool
  deriving Inhabited

/-- Who a run deals with: the service it asks, and the reader of its milestones, who may call it off
at any of them. -/
structure Surroundings where
  service : Service
  callsOffAt : Milestone → Bool

namespace Journal

/-- Nothing happened yet. -/
def empty (isCancelled : Bool) : Journal := ⟨[], 0, isCancelled⟩

/-- The milestones in the order they were reached. -/
def milestones (j : Journal) : List Milestone :=
  j.events.filterMap fun
    | .reached milestone => some milestone
    | _ => none

/-- The requests in the order they were made. -/
def exchanges (j : Journal) : List Exchange :=
  j.events.filterMap fun
    | .asked exchange => some exchange
    | _ => none

/-- One more event. -/
def add (j : Journal) (e : Event) : Journal := { j with events := j.events ++ [e] }

/-- The run is called off. -/
def cancel (j : Journal) : Journal := { j.add .calledOff with isCancelled := true }

/-- The run is called off under a condition. -/
def cancelIf (j : Journal) (condition : Bool) : Journal := if condition then j.cancel else j

/-- A milestone is reached. -/
def report (around : Surroundings) (milestone : Milestone) (j : Journal) : Journal :=
  (j.add (.reached milestone)).cancelIf (around.callsOffAt milestone)

/-- A request is made; the run does not wait for its end. -/
def ask (around : Surroundings) (deadline : Nat) (request : Request) (j : Journal) :
    Journal × Exchange :=
  let behaviour := around.service j.exchanges.length request
  let (duration, outcome) := behaviour.ending.within deadline
  let exchange : Exchange := ⟨request, j.now, j.now + duration, outcome⟩
  ((j.add (.asked exchange)).cancelIf behaviour.cancels, exchange)

/-- Requests are made one after another; the run does not wait for their ends. -/
def askAll (around : Surroundings) (deadline : Nat) (j : Journal) :
    List Request → Journal × List Exchange
  | [] => (j, [])
  | request :: rest =>
    let (j, exchange) := j.ask around deadline request
    let (j, exchanges) := askAll around deadline j rest
    (j, exchange :: exchanges)

/-- The run waits until some requests are over. -/
def await (exchanges : List Exchange) (j : Journal) : Journal :=
  { j with now := (exchanges.map Exchange.finish).foldl max j.now }

end Journal

/-- How many requests are being answered while one is made, of which `earlier` were made before: it
and those that are not over yet. A request that crashes at once is never being answered. -/
def Exchange.inFlight (earlier : List Exchange) (x : Exchange) : Nat :=
  if x.outcome.isCrash && x.finish == x.start then 0
  else 1 + earlier.countP fun y => x.start < y.finish

/-- The most requests that are being answered at once, of which `earlier` were made before. -/
def maxInFlightAfter (earlier : List Exchange) : List Exchange → Nat
  | [] => 0
  | x :: rest => max (x.inFlight earlier) (maxInFlightAfter (earlier ++ [x]) rest)

/-- The most requests that were being answered at once. -/
def Journal.maxInFlight (j : Journal) : Nat := maxInFlightAfter [] j.exchanges

end GuidedTour
