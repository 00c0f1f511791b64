import GuidedTour.Run.Journal

namespace GuidedTour

/-!
# What a run does

A run does four things: it reports that it reached a milestone, it looks whether it was called off,
it asks for several requests at once and waits for them, and it comes to a result. A `Course` is a
run in these terms. What other people do meanwhile is not in it.

* `Course` — what a run does from here on;
* `Course.report`, `Course.isCalledOff`, `Course.ask` — the single things;
* `Course.execute` — the course carried out in some surroundings. Requests that are asked for at
  once are made in their order, at the same time.
-/

/-- What a run does from here on. -/
inductive Course (α : Type) where
  | finished (result : α)
  | reports (milestone : Milestone) (rest : Course α)
  | looks (rest : Bool → Course α)
  | asks (requests : List Request) (rest : List Outcome → Course α)

namespace Course

/-- One course after another. -/
def bind : Course α → (α → Course β) → Course β
  | finished result, next => next result
  | reports milestone rest, next => reports milestone (rest.bind next)
  | looks rest, next => looks fun flag => (rest flag).bind next
  | asks requests rest, next => asks requests fun outcomes => (rest outcomes).bind next

instance : Monad Course where
  pure := finished
  bind := bind

/-- A milestone is reported. -/
def report (milestone : Milestone) : Course Unit := reports milestone (finished ())

/-- Whether the run was called off. -/
def isCalledOff : Course Bool := looks finished

/-- How some requests end that are asked for at once. -/
def ask (requests : List Request) : Course (List Outcome) := asks requests finished

/-- The course carried out, each request for at most `deadline` seconds. -/
def execute (around : Surroundings) (deadline : Nat) : Course α → Journal → Journal × α
  | finished result, j => (j, result)
  | reports milestone rest, j => rest.execute around deadline (j.report around milestone)
  | looks rest, j => (rest j.isCancelled).execute around deadline j
  | asks requests rest, j =>
    let (j, exchanges) := j.askAll around deadline requests
    (rest (exchanges.map Exchange.outcome)).execute around deadline (j.await exchanges)

end Course

end GuidedTour
