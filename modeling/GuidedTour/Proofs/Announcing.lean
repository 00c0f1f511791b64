import GuidedTour.Proofs.Interleaving
import GuidedTour.Run.Group

namespace GuidedTour

/-!
# The rounds of a course

A run of the tour asks in rounds: it announces a round by a milestone, asks for the requests of the
round at once, and looks whether it was called off before it announces the next.

* `Round` — the requests that are asked for at once, and the milestone before them;
* `Course.IsQuiet` — a course that asks for nothing more if it is called off;
* `Course.Follows` — a course that asks for some rounds in their order, and is quiet between them;
* `announced` — the rounds of the groups of batches;
* `groupsCourse_follows` — asking group by group follows these rounds.
-/

variable {α β : Type}

/-- Whether requests are made right after a milestone. -/
def Milestone.announces : Milestone → Bool
  | discovering => false
  | analyzed _ => false
  | welcome => true
  | batchGroup _ _ => true
  | validating => false

/-- Requests that are asked for at once, and the milestone that announces them. -/
structure Round where
  announcement : Milestone
  requests : List Request
  deriving DecidableEq

/-- The requests of some rounds, in their order. -/
def requestsOf (rounds : List Round) : List Request := rounds.flatMap Round.requests

namespace Course

/-- If it is called off, the course announces nothing more and asks for nothing more. -/
def IsQuiet : Course α → Prop
  | finished _ => True
  | reports milestone rest => milestone.announces = false ∧ rest.IsQuiet
  | looks rest => (rest true).IsQuiet
  | asks _ _ => False

/-- The course asks for the first of some rounds, as many as it likes. It announces each of them,
and is quiet from there on until it announces the next. -/
inductive Follows : List Round → Course α → Prop where
  | finished {rounds result} : Follows rounds (.finished result)
  | reports {rounds milestone rest} (plain : milestone.announces = false) (quiet : rest.IsQuiet)
      (later : Follows rounds rest) : Follows rounds (.reports milestone rest)
  | looks {rounds rest} (later : ∀ flag, Follows rounds (rest flag)) : Follows rounds (.looks rest)
  | announces {round : Round} {rounds rest} (loud : round.announcement.announces = true)
      (quiet : ∀ outcomes, (rest outcomes).IsQuiet)
      (later : ∀ outcomes, Follows rounds (rest outcomes)) :
    Follows (round :: rounds) (.reports round.announcement (.asks round.requests rest))

/-- What is quiet stays quiet with something quiet behind it. -/
theorem IsQuiet.bind {c : Course α} {next : α → Course β} (hc : c.IsQuiet)
    (hnext : ∀ result, (next result).IsQuiet) : (c >>= next).IsQuiet := by
  induction c with
  | finished result => exact hnext result
  | reports milestone rest ih => exact ⟨hc.1, ih hc.2⟩
  | looks rest ih => exact ih true hc
  | asks requests rest ih => exact hc.elim

/-- A course may leave rounds out. -/
theorem Follows.of_nil {c : Course α} (h : c.Follows []) (rounds : List Round) :
    c.Follows rounds := by
  generalize hnone : ([] : List Round) = noRounds at h
  induction h with
  | finished => exact .finished
  | reports plain quiet _ ih => exact .reports plain quiet (ih hnone)
  | looks _ ih => exact .looks fun flag => ih flag hnone
  | announces => exact absurd hnone (by simp)

/-- After the rounds something may be done that asks for nothing. -/
theorem Follows.bind {rounds : List Round} {c : Course α} {next : α → Course β}
    (hc : c.Follows rounds) (hnext : ∀ result, (next result).Follows [])
    (hquiet : ∀ result, (next result).IsQuiet) : (c >>= next).Follows rounds := by
  induction hc with
  | finished => exact (hnext _).of_nil _
  | reports plain quiet _ ih => exact .reports plain (quiet.bind hquiet) ih
  | looks _ ih => exact .looks ih
  | announces loud quiet _ ih =>
    exact .announces loud (fun outcomes => (quiet outcomes).bind hquiet) ih

end Course

/-! ### Groups of batches -/

/-- The rounds of some groups, of which the first has the number `index`. -/
def announced (total index : Nat) : List (List Request) → List Round
  | [] => []
  | group :: rest => ⟨.batchGroup index total, group⟩ :: announced total (index + 1) rest

/-- Announced rounds ask for their groups. -/
theorem announced_map_requests (total index : Nat) (groups : List (List Request)) :
    (announced total index groups).map Round.requests = groups := by
  induction groups generalizing index with
  | nil => rfl
  | cons group rest ih => simp [announced, ih]

/-- The requests of the first rounds are those of the first groups. -/
theorem requestsOf_take_announced (total index : Nat) (groups : List (List Request)) (n : Nat) :
    requestsOf ((announced total index groups).take n) = (groups.take n).flatten := by
  rw [requestsOf, List.flatMap_def, List.map_take, announced_map_requests]

/-- Called off, groups of requests are not asked for. -/
theorem groupsCourse_isQuiet (total index : Nat) (groups : List (List Request)) :
    (groupsCourse total index groups).IsQuiet := by
  cases groups with
  | nil => trivial
  | cons group rest => trivial

/-- Asking group by group follows the rounds of the groups. -/
theorem groupsCourse_follows (total index : Nat) (groups : List (List Request)) :
    (groupsCourse total index groups).Follows (announced total index groups) := by
  induction groups generalizing index with
  | nil => exact .finished
  | cons group rest ih =>
    have hquiet := groupsCourse_isQuiet total (index + 1) rest
    refine .looks fun flag => ?_
    cases flag with
    | true => exact .finished
    | false =>
      refine .announces rfl (fun outcomes => ?_) fun outcomes => ?_
      · exact hquiet.bind fun _ => trivial
      · exact (ih (index + 1)).bind (fun _ => .finished) fun _ => trivial

section Batches

variable (options : BatchOptions) (model : Option String) (project : String)
  (batches : List Batch)

/-- The rounds in which the batches of a project are asked for. -/
def batchRounds : List Round :=
  let groups := requestGroups options model project batches
  announced groups.length 1 groups

theorem batchesCourse_isQuiet : (batchesCourse options model project batches).IsQuiet :=
  (groupsCourse_isQuiet _ _ _).bind fun _ => trivial

/-- Batches are asked for in their rounds. -/
theorem batchesCourse_follows :
    (batchesCourse options model project batches).Follows
      (batchRounds options model project batches) :=
  (groupsCourse_follows _ _ _).bind (fun _ => .finished) fun _ => trivial

end Batches

end GuidedTour
