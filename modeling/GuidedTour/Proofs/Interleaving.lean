import GuidedTour.Run.Course
import Mathlib.Logic.Relation

namespace GuidedTour

/-!
# Requests under way at once

`Course.execute` makes the requests of a round in their order and knows at once how each of them
ends. This module says what may happen in between. The requests of a round become tasks, which the
service ends one by one, in any order; the run itself collects what became of them, in the order in
which they were handed over; and somebody may call the run off at any milestone, or at any moment
while requests are under way. Time passes only when everything waits.

* `Ending.poll` — what a look at a request shows: its end, which is looked for first, or that the
  deadline has come;
* `Task`, `Stage` — a request of a round and how far it is;
* `Happening` — what can be seen from outside, in the order it happened, with `milestonesIn`,
  `requestsIn`, `endedIn` and `inFlightAfter`;
* `Scene` — a run at a moment: what it is doing, what happened so far, the time and the flag;
* `Scene.start` — the beginning of a course after what a journal tells;
* `Scene.Step` — what may happen next;
* `Scene.Reaches` — what may have happened after any number of steps.
-/

/-- How the service ends each request, by the number of earlier requests and the request itself. -/
abbrev Endings := Nat → Request → Ending

/-- How a service ends each request. -/
def Service.endings (service : Service) : Endings := fun number request =>
  (service number request).ending

/-- What a run cannot choose: how each request ends, and how long one may take. -/
structure Conditions where
  endings : Endings
  deadline : Nat

/-- The conditions that surroundings make. -/
def Surroundings.conditions (around : Surroundings) (deadline : Nat) : Conditions :=
  ⟨around.service.endings, deadline⟩

namespace Ending

/-- What has become of a request after so many seconds. -/
def resultBy? (elapsed : Nat) : Ending → Option Outcome
  | crashesAfter delay => if delay ≤ elapsed then some .crashed else none
  | never => none
  | answers delay result => if delay ≤ elapsed then some (.ofResult result) else none

/-- What a look at a request shows after so many seconds: its end, or that the deadline came. -/
def poll (deadline elapsed : Nat) (e : Ending) : Option Outcome :=
  match e.resultBy? elapsed with
  | some outcome => some outcome
  | none => if deadline ≤ elapsed then some (.failed (.timeout deadline)) else none

end Ending

/-- How far a request of a round is. -/
inductive Stage where
  | handedOver
  | underWay (start : Nat)
  | ended (outcome : Outcome)
  deriving DecidableEq

/-- A request of a round with its number among all requests of the run. -/
structure Task where
  number : Nat
  request : Request
  stage : Stage
  deriving DecidableEq

/-- The tasks of a round whose first request has a number. -/
def tasksFrom (first : Nat) : List Request → List Task
  | [] => []
  | request :: rest => ⟨first, request, .handedOver⟩ :: tasksFrom (first + 1) rest

namespace Task

/-- How the service ends the request. -/
def ending (k : Conditions) (t : Task) : Ending := k.endings t.number t.request

/-- How many seconds the request takes. -/
def duration (k : Conditions) (t : Task) : Nat := ((t.ending k).within k.deadline).1

/-- What becomes of the request. -/
def outcome (k : Conditions) (t : Task) : Outcome := ((t.ending k).within k.deadline).2

@[simp] theorem duration_stage (k : Conditions) (t : Task) (stage : Stage) :
    ({ t with stage } : Task).duration k = t.duration k := rfl

@[simp] theorem outcome_stage (k : Conditions) (t : Task) (stage : Stage) :
    ({ t with stage } : Task).outcome k = t.outcome k := rfl

/-- Whether nothing can happen to the request before time passes. -/
def IsIdle (k : Conditions) (now : Nat) (t : Task) : Prop :=
  match t.stage with
  | .handedOver => False
  | .underWay start => (t.ending k).poll k.deadline (now - start) = none
  | .ended _ => True

end Task

/-- What can be seen of a run. -/
inductive Happening where
  | reached (milestone : Milestone)
  | made (number : Nat) (request : Request)
  | ended (number : Nat) (outcome : Outcome)
  | calledOff
  deriving DecidableEq

namespace Happening

/-- The milestone that is reached. -/
@[simp] def milestone? : Happening → Option Milestone
  | reached milestone => some milestone
  | made _ _ => none
  | ended _ _ => none
  | calledOff => none

/-- The request that is made, with its number. -/
@[simp] def request? : Happening → Option (Nat × Request)
  | reached _ => none
  | made number request => some (number, request)
  | ended _ _ => none
  | calledOff => none

/-- The number of the request that is over. -/
@[simp] def ended? : Happening → Option Nat
  | reached _ => none
  | made _ _ => none
  | ended number _ => some number
  | calledOff => none

end Happening

/-- The milestones that were reached, in their order. -/
def milestonesIn (history : List Happening) : List Milestone :=
  history.filterMap Happening.milestone?

/-- The requests that were made, with their numbers, in the order they were made. -/
def requestsIn (history : List Happening) : List (Nat × Request) :=
  history.filterMap Happening.request?

/-- The numbers of the requests that are over, in the order in which they were over. -/
def endedIn (history : List Happening) : List Nat := history.filterMap Happening.ended?

/-- How many requests are being answered: those that were made and are not over. -/
def inFlightAfter (history : List Happening) : Nat :=
  (requestsIn history).length - (endedIn history).length

@[simp] theorem milestonesIn_nil : milestonesIn [] = [] := rfl

/-- The milestones of one history come before those of what follows it. -/
@[simp] theorem milestonesIn_append (history more : List Happening) :
    milestonesIn (history ++ more) = milestonesIn history ++ milestonesIn more :=
  List.filterMap_append

@[simp] theorem milestonesIn_cons (x : Happening) (history : List Happening) :
    milestonesIn (x :: history) = x.milestone?.toList ++ milestonesIn history := by
  cases x <;> rfl

@[simp] theorem requestsIn_nil : requestsIn [] = [] := rfl

@[simp] theorem requestsIn_append (history more : List Happening) :
    requestsIn (history ++ more) = requestsIn history ++ requestsIn more :=
  List.filterMap_append

@[simp] theorem requestsIn_cons (x : Happening) (history : List Happening) :
    requestsIn (x :: history) = x.request?.toList ++ requestsIn history := by
  cases x <;> rfl

@[simp] theorem endedIn_nil : endedIn [] = [] := rfl

@[simp] theorem endedIn_append (history more : List Happening) :
    endedIn (history ++ more) = endedIn history ++ endedIn more :=
  List.filterMap_append

@[simp] theorem endedIn_cons (x : Happening) (history : List Happening) :
    endedIn (x :: history) = x.ended?.toList ++ endedIn history := by
  cases x <;> rfl

/-- What a run is doing: it follows its course, or it waits for the tasks of a round, of which it
collects the first that it has not collected as soon as that is over. -/
inductive Activity (α : Type) where
  | going (course : Course α)
  | waiting (collected : List Outcome) (tasks : List Task) (rest : List Outcome → Course α)

/-- A run at a moment. `asked` requests were handed over so far. -/
structure Scene (α : Type) where
  activity : Activity α
  history : List Happening
  now : Nat
  asked : Nat
  isCancelled : Bool

/-- The beginning of a course. Of all that a journal tells, only that the run was called off can
still be seen. -/
def Scene.start {α : Type} (past : Journal) (course : Course α) : Scene α :=
  ⟨.going course, if past.isCancelled then [.calledOff] else [], past.now, past.exchanges.length,
    past.isCancelled⟩

namespace Scene

variable {α : Type} (past : Journal) (course : Course α)

@[simp] theorem start_milestones : milestonesIn (start past course).history = [] := by
  cases h : past.isCancelled <;> simp [start, h]

@[simp] theorem start_requests : requestsIn (start past course).history = [] := by
  cases h : past.isCancelled <;> simp [start, h]

@[simp] theorem start_ended : endedIn (start past course).history = [] := by
  cases h : past.isCancelled <;> simp [start, h]

end Scene

/-- What a run may do next, and what may happen to it. -/
inductive Scene.Step {α : Type} (k : Conditions) : Scene α → Scene α → Prop where
  /-- A milestone is reached. -/
  | reports {s milestone rest} (doing : s.activity = .going (.reports milestone rest)) :
    Step k s { s with activity := .going rest, history := s.history ++ [.reached milestone] }
  /-- A milestone is reached, and whoever hears of it calls the run off. -/
  | reportsCallingOff {s milestone rest} (doing : s.activity = .going (.reports milestone rest))
      (running : s.isCancelled = false) :
    Step k s
      { s with
        activity := .going rest
        history := s.history ++ [.reached milestone, .calledOff]
        isCancelled := true }
  /-- The run looks whether it was called off. -/
  | looks {s rest} (doing : s.activity = .going (.looks rest)) :
    Step k s { s with activity := .going (rest s.isCancelled) }
  /-- The requests of a round are handed over. -/
  | asks {s requests rest} (doing : s.activity = .going (.asks requests rest)) :
    Step k s
      { s with
        activity := .waiting [] (tasksFrom s.asked requests) rest
        asked := s.asked + requests.length }
  /-- A request is made. -/
  | makes {s collected before t after rest}
      (doing : s.activity = .waiting collected (before ++ t :: after) rest)
      (due : t.stage = .handedOver) :
    Step k s
      { s with
        activity :=
          .waiting collected (before ++ { t with stage := .underWay s.now } :: after) rest
        history := s.history ++ [.made t.number t.request] }
  /-- A request is over. -/
  | ends {s collected before t after rest start outcome}
      (doing : s.activity = .waiting collected (before ++ t :: after) rest)
      (made : t.stage = .underWay start)
      (shown : (t.ending k).poll k.deadline (s.now - start) = some outcome) :
    Step k s
      { s with
        activity := .waiting collected (before ++ { t with stage := .ended outcome } :: after) rest
        history := s.history ++ [.ended t.number outcome] }
  /-- What became of the next request is collected. -/
  | collects {s collected t after rest outcome}
      (doing : s.activity = .waiting collected (t :: after) rest)
      (settled : t.stage = .ended outcome) :
    Step k s { s with activity := .waiting (collected ++ [outcome]) after rest }
  /-- Everything is collected, and the run follows its course again. -/
  | goesOn {s collected rest} (doing : s.activity = .waiting collected [] rest) :
    Step k s { s with activity := .going (rest collected) }
  /-- The run is called off while requests are under way. -/
  | callsOff {s collected tasks rest} (doing : s.activity = .waiting collected tasks rest)
      (running : s.isCancelled = false) :
    Step k s { s with history := s.history ++ [.calledOff], isCancelled := true }
  /-- Time passes. -/
  | waits {s collected t after rest start}
      (doing : s.activity = .waiting collected (t :: after) rest)
      (made : t.stage = .underWay start)
      (idle : ∀ t' ∈ t :: after, t'.IsIdle k s.now) :
    Step k s { s with now := s.now + 1 }

/-- What may be after any number of steps. -/
abbrev Scene.Reaches {α : Type} (k : Conditions) : Scene α → Scene α → Prop :=
  Relation.ReflTransGen (Scene.Step k)

end GuidedTour
