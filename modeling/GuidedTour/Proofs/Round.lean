import GuidedTour.Proofs.Interleaving
import Mathlib.Data.List.Basic

namespace GuidedTour

/-!
# What every order of a round comes to

The order in which the requests of a round are made and end makes no difference to the run that
waits for them. Two things stay the same at every step of the waiting, whoever moves:

* the outcomes: those that are collected, and behind them those that the remaining requests have or
  will have, in the order in which they were handed over (`Task.outcome`);
* the time at which everything is over (`lastEnd`).

`Task.Fits` is what makes a look at a request show its outcome: time never runs past the end of a
request without the request being over.
-/

variable {k : Conditions} {now : Nat}

/-! ### One request under a deadline -/

namespace Ending

variable {deadline elapsed : Nat} {e : Ending} {outcome : Outcome}

/-- No request takes longer than the deadline. -/
theorem within_le (deadline : Nat) (e : Ending) : (e.within deadline).1 ≤ deadline := by
  cases e with
  | never => exact Nat.le_refl _
  | crashesAfter delay | answers delay result =>
    simp only [within]
    split <;> simp_all

/-- A look shows nothing just before the end of a request. -/
theorem poll_eq_none_iff : e.poll deadline elapsed = none ↔ elapsed < (e.within deadline).1 := by
  cases e with
  | never => simp [poll, resultBy?, within]
  | crashesAfter delay | answers delay result =>
    by_cases hdelay : delay ≤ elapsed <;> by_cases hend : delay ≤ deadline <;>
      simp [poll, resultBy?, within, hdelay, hend] <;> omega

/-- A look at the end of a request shows its outcome. -/
theorem poll_within (deadline : Nat) (e : Ending) :
    e.poll deadline (e.within deadline).1 = some (e.within deadline).2 := by
  cases e with
  | never => simp [poll, resultBy?, within]
  | crashesAfter delay | answers delay result =>
    by_cases h : delay ≤ deadline <;> simp [poll, resultBy?, within, h]

end Ending

/-! ### The tasks of a round -/

namespace Task

/-- When the request is over, as far as that lies ahead. -/
def finish (k : Conditions) (now : Nat) (t : Task) : Nat :=
  match t.stage with
  | .handedOver => now + t.duration k
  | .underWay start => start + t.duration k
  | .ended _ => now

/-- Time has not run past the end of the request, and a request that is over has its outcome. -/
def Fits (k : Conditions) (now : Nat) (t : Task) : Prop :=
  match t.stage with
  | .handedOver => True
  | .underWay start => start ≤ now ∧ now ≤ start + t.duration k
  | .ended outcome => outcome = t.outcome k

variable {t : Task} {start : Nat} {o : Outcome}

/-- What a look at a request shows is its outcome, and shows it at its end. -/
theorem Fits.of_poll (hfits : t.Fits k now) (hstage : t.stage = .underWay start)
    (hpoll : (t.ending k).poll k.deadline (now - start) = some o) :
    o = t.outcome k ∧ now = start + t.duration k := by
  simp only [Fits, hstage] at hfits
  have hle : t.duration k ≤ now - start := by
    refine Nat.le_of_not_lt fun hlt => ?_
    rw [Ending.poll_eq_none_iff.mpr hlt] at hpoll
    exact absurd hpoll (by simp)
  -- Not later either, since time does not run past the end.
  have helapsed : now - start = t.duration k := by omega
  have hshown := Ending.poll_within k.deadline (t.ending k)
  rw [helapsed, show t.duration k = ((t.ending k).within k.deadline).1 from rfl, hshown] at hpoll
  exact ⟨(Option.some.inj hpoll).symm, by omega⟩

/-- A request that shows nothing is not at its end. -/
theorem Fits.lt_of_poll (hfits : t.Fits k now) (hstage : t.stage = .underWay start)
    (hpoll : (t.ending k).poll k.deadline (now - start) = none) :
    now < start + t.duration k := by
  simp only [Fits, hstage] at hfits
  have hlt : now - start < t.duration k := Ending.poll_eq_none_iff.mp hpoll
  omega

/-- While a request is idle, a second may pass. -/
theorem Fits.wait (hfits : t.Fits k now) (hidle : t.IsIdle k now) :
    t.Fits k (now + 1) ∧ (t.finish k (now + 1) = t.finish k now ∨
      t.finish k now = now ∧ t.finish k (now + 1) = now + 1) := by
  cases hstage : t.stage with
  | handedOver => simp [IsIdle, hstage] at hidle
  | underWay start =>
    simp only [IsIdle, hstage] at hidle
    have hlt := hfits.lt_of_poll hstage hidle
    simp only [Fits, hstage] at hfits ⊢
    exact ⟨⟨by omega, by omega⟩, by simp [finish, hstage]⟩
  | ended outcome =>
    simp only [Fits, hstage] at hfits ⊢
    exact ⟨hfits, by simp [finish, hstage]⟩

end Task

@[simp] theorem tasksFrom_length (first : Nat) (requests : List Request) :
    (tasksFrom first requests).length = requests.length := by
  induction requests generalizing first with
  | nil => rfl
  | cons request rest ih => simp [tasksFrom, ih]

/-- A task of a round that was just handed over. -/
theorem mem_tasksFrom {first : Nat} {requests : List Request} {t : Task}
    (h : t ∈ tasksFrom first requests) :
    t.stage = .handedOver ∧ first ≤ t.number ∧ requests[t.number - first]? = some t.request := by
  induction requests generalizing first with
  | nil => simp [tasksFrom] at h
  | cons request rest ih =>
    rcases List.mem_cons.mp h with rfl | htail
    · simp
    · obtain ⟨hstage, hle, hrequest⟩ := ih htail
      have hnumber : t.number - first = t.number - (first + 1) + 1 := by omega
      exact ⟨hstage, by omega, by rw [hnumber]; simpa using hrequest⟩

/-- The tasks are numbered one after the other. -/
theorem tasksFrom_numbers (first : Nat) (requests : List Request) :
    (tasksFrom first requests).map Task.number = List.range' first requests.length := by
  induction requests generalizing first with
  | nil => rfl
  | cons request rest ih => simp [tasksFrom, ih, List.range'_succ]

/-- When every task is over. -/
def lastEnd (k : Conditions) (now : Nat) (tasks : List Task) : Nat :=
  (tasks.map (Task.finish k now)).foldl max now

/-- The last end is the latest time at which a task ends, or now. -/
theorem lastEnd_eq_iff {tasks : List Task} {time : Nat} :
    lastEnd k now tasks = time ↔
      (time = now ∨ ∃ t ∈ tasks, t.finish k now = time) ∧
        now ≤ time ∧ ∀ t ∈ tasks, t.finish k now ≤ time := by
  have h := List.max_eq_iff (a := time) (List.cons_ne_nil now (tasks.map (Task.finish k now)))
  simpa [lastEnd, List.max] using h

/-- A round does not end before it starts. -/
theorem le_lastEnd (k : Conditions) (now : Nat) (tasks : List Task) :
    now ≤ lastEnd k now tasks := (lastEnd_eq_iff.mp rfl).2.1

theorem finish_le_lastEnd {t : Task} {tasks : List Task} (ht : t ∈ tasks) :
    t.finish k now ≤ lastEnd k now tasks := (lastEnd_eq_iff.mp rfl).2.2 t ht

@[simp] theorem lastEnd_nil (k : Conditions) (now : Nat) : lastEnd k now [] = now := rfl

/-- A round that was just handed over is over at the deadline at the latest. -/
theorem lastEnd_tasksFrom_le (k : Conditions) (now first : Nat) (requests : List Request) :
    lastEnd k now (tasksFrom first requests) ≤ now + k.deadline := by
  obtain ⟨h | ⟨t, ht, h⟩, -⟩ :=
    lastEnd_eq_iff.mp (rfl : lastEnd k now (tasksFrom first requests) = _)
  · omega
  · have hduration : t.duration k ≤ k.deadline := Ending.within_le _ _
    have hfinish : t.finish k now = now + t.duration k := by
      simp [Task.finish, (mem_tasksFrom ht).1]
    omega

/-- It makes no difference that the requests of a round are made at once. -/
theorem lastEnd_allMade (k : Conditions) (now first : Nat) (requests : List Request) :
    lastEnd k now
        ((tasksFrom first requests).map fun t => { t with stage := .underWay now }) =
      lastEnd k now (tasksFrom first requests) := by
  simp only [lastEnd, List.map_map]
  congr 1
  refine List.map_congr_left fun t ht => ?_
  simp [Task.finish, (mem_tasksFrom ht).1]

/-- A task may move on as long as it is to be over at the same time. -/
theorem lastEnd_congr {before after : List Task} {t t' : Task}
    (h : t'.finish k now = t.finish k now) :
    lastEnd k now (before ++ t' :: after) = lastEnd k now (before ++ t :: after) := by
  simp [lastEnd, h]

/-- A request that is over is not waited for. -/
theorem lastEnd_cons_ended {t : Task} {after : List Task} {outcome : Outcome}
    (h : t.stage = .ended outcome) : lastEnd k now (t :: after) = lastEnd k now after := by
  simp [lastEnd, Task.finish, h]

/-- When everything waits, a second may pass without making the round longer. -/
theorem lastEnd_wait {t : Task} {after : List Task} {start : Nat}
    (hmade : t.stage = .underWay start)
    (hfits : ∀ t' ∈ t :: after, t'.Fits k now) (hidle : ∀ t' ∈ t :: after, t'.IsIdle k now) :
    lastEnd k (now + 1) (t :: after) = lastEnd k now (t :: after) := by
  obtain ⟨hattained, -, hle⟩ := lastEnd_eq_iff.mp (rfl : lastEnd k now (t :: after) = _)
  generalize lastEnd k now (t :: after) = time at hattained hle
  -- The first task is not over, so the end of the round lies ahead.
  have hlt : now < time := by
    have hhead := hidle t List.mem_cons_self
    simp only [Task.IsIdle, hmade] at hhead
    have hnow := (hfits t List.mem_cons_self).lt_of_poll hmade hhead
    have hfinish := hle t List.mem_cons_self
    simp only [Task.finish, hmade] at hfinish
    omega
  have hstep : ∀ t' ∈ t :: after, t'.finish k (now + 1) = t'.finish k now ∨
      t'.finish k now = now ∧ t'.finish k (now + 1) = now + 1 := fun t' ht' =>
    ((hfits t' ht').wait (hidle t' ht')).2
  refine lastEnd_eq_iff.mpr ⟨.inr ?_, hlt, fun t' ht' => ?_⟩
  · obtain rfl | ⟨t', ht', hend⟩ := hattained
    · omega
    · refine ⟨t', ht', ?_⟩
      rcases hstep t' ht' with heq | ⟨hover, -⟩ <;> omega
  · have hfinish := hle t' ht'
    rcases hstep t' ht' with heq | ⟨-, heq⟩ <;> omega

end GuidedTour
