import GuidedTour.Proofs.Ensures
import Mathlib.Algebra.GroupWithZero.Nat
import Mathlib.Algebra.Order.BigOperators.Group.List
import Mathlib.Algebra.Order.Group.Nat

namespace GuidedTour

/-!
# Every run comes to an end

Whatever order things happen in, a run is never stuck before it has come to a result, and it cannot
go on for ever, even if no request is ever answered.

* `Scene.Inevitable` — what every run comes to, whatever happens to it on the way;
* `potential` — how much can still happen in a round; every step uses some of it up;
* `Scene.inevitably_finished` — every run comes to a result;
* `Scene.exists_round_end` — a round can be brought to its end without the run being called off.
-/

variable {k : Conditions} {α : Type}

namespace Scene

/-- Every run from a scene comes to a scene of a kind, whatever happens on the way. -/
inductive Inevitable (k : Conditions) (P : Scene α → Prop) : Scene α → Prop where
  | here {s} (h : P s) : Inevitable k P s
  | later {s} (next : ∃ s', Step k s s') (all : ∀ s', Step k s s' → Inevitable k P s') :
    Inevitable k P s

/-- What is inevitable from a scene on has properties of everything that may come after it. -/
theorem Inevitable.and_reached {P : Scene α → Prop} {s₀ s : Scene α} (h : Inevitable k P s)
    (hs : Reaches k s₀ s) : Inevitable k (fun s => P s ∧ Reaches k s₀ s) s := by
  induction h with
  | here h => exact .here ⟨h, hs⟩
  | later next _ ih => exact .later next fun s' hstep => ih s' hstep (hs.tail hstep)

/-- What is inevitable stays so when less is asked for. -/
theorem Inevitable.mono {P P' : Scene α → Prop} {s : Scene α} (hP : ∀ s, P s → P' s)
    (h : Inevitable k P s) : Inevitable k P' s := by
  induction h with
  | here h => exact .here (hP _ h)
  | later next _ ih => exact .later next ih

/-- The run has come to a result. -/
def IsFinished (s : Scene α) : Prop := ∃ result, s.activity = .going (.finished result)

end Scene

/-! ### The potential of a round -/

/-- How much can still happen to a request: it can be made, be over and be collected, and until it
is over every second counts. -/
def Task.potential (k : Conditions) (now : Nat) (t : Task) : Nat :=
  match t.stage with
  | .handedOver => t.duration k + 3
  | .underWay start => start + t.duration k - now + 2
  | .ended _ => 1

/-- How much can still happen in a round. -/
def potential (k : Conditions) (now : Nat) (tasks : List Task) : Nat :=
  (tasks.map (Task.potential k now)).sum

/-- A round comes nearer to its end with each of its tasks. -/
theorem potential_lt_of_task {now : Nat} {before after : List Task} {t t' : Task}
    (h : t'.potential k now < t.potential k now) :
    potential k now (before ++ t' :: after) < potential k now (before ++ t :: after) := by
  simp [potential, h]

/-- A task that has nothing to do comes no further from its end by waiting. -/
theorem Task.potential_wait {now : Nat} {t : Task} (hidle : t.IsIdle k now) :
    t.potential k (now + 1) ≤ t.potential k now := by
  cases hstage : t.stage with
  | handedOver => simp [IsIdle, hstage] at hidle
  | underWay start => simp only [potential, hstage]; omega
  | ended outcome => simp [potential, hstage]

/-- A round with a request under way comes nearer to its end by waiting. -/
theorem potential_wait {now start : Nat} {t : Task} {after : List Task}
    (hmade : t.stage = .underWay start) (hidle : ∀ t' ∈ t :: after, t'.IsIdle k now) :
    potential k (now + 1) (t :: after) < potential k now (t :: after) := by
  have hhead : t.potential k (now + 1) < t.potential k now := by
    have hlt := hidle t List.mem_cons_self
    simp only [Task.IsIdle, hmade, Ending.poll_eq_none_iff] at hlt
    simp only [Task.potential, hmade, Task.duration]
    omega
  have htail : potential k (now + 1) after ≤ potential k now after :=
    List.sum_le_sum fun t' ht' => Task.potential_wait (hidle t' (List.mem_cons_of_mem t ht'))
  simp only [potential, List.map_cons, List.sum_cons] at htail ⊢
  omega

/-- Some request of a round can move on, or everything waits. -/
theorem exists_not_idle_or_idle (k : Conditions) (now : Nat) (tasks : List Task) :
    (∃ before t after, tasks = before ++ t :: after ∧ ¬ t.IsIdle k now) ∨
      ∀ t ∈ tasks, t.IsIdle k now := by
  by_cases hidle : ∀ t ∈ tasks, t.IsIdle k now
  · exact .inr hidle
  · push Not at hidle
    obtain ⟨t, ht, hmoves⟩ := hidle
    obtain ⟨before, after, rfl⟩ := List.append_of_mem ht
    exact .inl ⟨before, t, after, rfl, hmoves⟩

/-- A request that can move on can be made or be over. -/
theorem Task.of_not_idle {now : Nat} {t : Task} (h : ¬ t.IsIdle k now) :
    t.stage = .handedOver ∨
      ∃ start outcome, t.stage = .underWay start ∧
        (t.ending k).poll k.deadline (now - start) = some outcome := by
  cases hstage : t.stage with
  | handedOver => exact .inl rfl
  | underWay start =>
    simp only [IsIdle, hstage] at h
    obtain ⟨outcome, houtcome⟩ := Option.ne_none_iff_exists'.mp h
    exact .inr ⟨start, outcome, rfl, houtcome⟩
  | ended outcome => simp [IsIdle, hstage] at h

namespace Scene

variable {s s' : Scene α} {collected : List Outcome} {tasks : List Task}
  {rest : List Outcome → Course α}

/-- A run that waits is never stuck. -/
theorem exists_step_of_waiting (h : s.activity = .waiting collected tasks rest) :
    ∃ s', Step k s s' := by
  rcases exists_not_idle_or_idle k s.now tasks with ⟨before, t, after, rfl, hmoves⟩ | hidle
  · rcases Task.of_not_idle hmoves with hdue | ⟨start, outcome, hmade, hshown⟩
    · exact ⟨_, .makes h hdue⟩
    · exact ⟨_, .ends h hmade hshown⟩
  · cases tasks with
    | nil => exact ⟨_, .goesOn h⟩
    | cons t after =>
      cases hstage : t.stage with
      | handedOver => simp [Task.IsIdle, hstage] at hidle
      | underWay start => exact ⟨_, .waits h hstage hidle⟩
      | ended outcome => exact ⟨_, .collects h hstage⟩

/-- A round comes to its end, if whatever the run does afterwards comes to its end. -/
theorem inevitably_finished_of_waiting
    (hrest : ∀ outcomes (s : Scene α), s.activity = .going (rest outcomes) →
      Inevitable k IsFinished s)
    (h : s.activity = .waiting collected tasks rest) : Inevitable k IsFinished s := by
  -- Being called off also counts, since that can happen only once.
  generalize hn : potential k s.now tasks + (if s.isCancelled then 0 else 1) = n
  induction n using Nat.strong_induction_on generalizing s collected tasks with
  | _ n ih =>
    subst hn
    refine .later (exists_step_of_waiting h) fun s' hstep => ?_
    obtain ⟨activity, history, now, asked, isCancelled⟩ := s
    obtain rfl := h
    cases hstep with
    -- Whatever happens to a request or in time uses up some of the potential.
    | makes doing due =>
      cases doing
      refine ih _ (Nat.add_lt_add_right (potential_lt_of_task ?_) _) rfl rfl
      simp [Task.potential, due]
    | ends doing made shown =>
      cases doing
      refine ih _ (Nat.add_lt_add_right (potential_lt_of_task ?_) _) rfl rfl
      simp [Task.potential, made]
    | collects doing settled =>
      cases doing
      refine ih _ (Nat.add_lt_add_right ?_ _) rfl rfl
      simp [potential, Task.potential, settled]
    | goesOn doing =>
      cases doing
      exact hrest _ _ rfl
    | callsOff doing running =>
      cases doing
      refine ih _ ?_ rfl rfl
      simp only at running
      simp [running]
    | waits doing made idle =>
      cases doing
      exact ih _ (Nat.add_lt_add_right (potential_wait made idle) _) rfl rfl
    | reports doing => cases doing
    | reportsCallingOff doing => cases doing
    | looks doing => cases doing
    | asks doing => cases doing

/-- What a run does after the next step of its course, if there is one. -/
def activityAfter (s : Scene α) : Course α → Option (Activity α)
  | .finished _ => none
  | .reports _ rest => some (.going rest)
  | .looks rest => some (.going (rest s.isCancelled))
  | .asks requests rest => some (.waiting [] (tasksFrom s.asked requests) rest)

/-- What a course that goes on comes to by a step is told by the course. -/
theorem Step.of_going {c : Course α} (hstep : Step k s s') (h : s.activity = .going c) :
    s.activityAfter c = some s'.activity := by
  obtain ⟨activity, history, now, asked, isCancelled⟩ := s
  obtain rfl := h
  cases hstep with
  | reports doing | reportsCallingOff doing | looks doing | asks doing => cases doing; rfl
  | makes doing | ends doing | collects doing | goesOn doing | callsOff doing | waits doing =>
    cases doing

/-- A run that follows a course comes to a result. -/
theorem inevitably_finished_of_going {c : Course α} (h : s.activity = .going c) :
    Inevitable k IsFinished s := by
  induction c generalizing s with
  | finished result => exact .here ⟨result, h⟩
  | reports milestone rest ih =>
    refine .later ⟨_, .reports h⟩ fun s' hstep => ih ?_
    exact (Option.some.inj (hstep.of_going h)).symm
  | looks rest ih =>
    refine .later ⟨_, .looks h⟩ fun s' hstep => ih s.isCancelled ?_
    exact (Option.some.inj (hstep.of_going h)).symm
  | asks requests rest ih =>
    refine .later ⟨_, .asks h⟩ fun s' hstep => ?_
    have hwaiting := (Option.some.inj (hstep.of_going h)).symm
    exact inevitably_finished_of_waiting (fun outcomes _ => ih outcomes) hwaiting

/-- Every run comes to a result. -/
theorem inevitably_finished (k : Conditions) (s : Scene α) : Inevitable k IsFinished s := by
  cases h : s.activity with
  | going c => exact inevitably_finished_of_going h
  | waiting collected tasks rest =>
    exact inevitably_finished_of_waiting (fun _ _ => inevitably_finished_of_going) h

/-! ### The end of a round -/

/-- A run follows a course again at a later time. Nothing else happened that matters to it. -/
structure GoesOn (k : Conditions) (s s' : Scene α) (course : Course α) (time : Nat) : Prop where
  reaches : Reaches k s s'
  activity : s'.activity = .going course
  now : s'.now = time
  asked : s'.asked = s.asked
  isCancelled : s'.isCancelled = s.isCancelled
  milestones : milestonesIn s'.history = milestonesIn s.history
  requests : requestsIn s'.history = requestsIn s.history

/-- A step on the way, at which nothing happens that matters. -/
theorem exists_goesOn_of_step {course : Course α} {time : Nat} (hstep : Step k s s')
    (hasked : s'.asked = s.asked) (hflag : s'.isCancelled = s.isCancelled)
    (hmilestones : milestonesIn s'.history = milestonesIn s.history)
    (hrequests : requestsIn s'.history = requestsIn s.history)
    (h : ∃ s'', GoesOn k s' s'' course time) : ∃ s'', GoesOn k s s'' course time := by
  obtain ⟨s'', h⟩ := h
  exact ⟨s'', .head hstep h.reaches, h.activity, h.now, h.asked.trans hasked,
    h.isCancelled.trans hflag, h.milestones.trans hmilestones, h.requests.trans hrequests⟩

/-- A round whose requests are made can come to its end without the run being called off. -/
theorem exists_round_end (doing : s.activity = .waiting collected tasks rest)
    (hfits : ∀ t ∈ tasks, t.Fits k s.now) (hmade : ∀ t ∈ tasks, t.stage ≠ .handedOver) :
    ∃ s', GoesOn k s s' (rest (collected ++ tasks.map (Task.outcome k)))
      (lastEnd k s.now tasks) := by
  generalize hn : potential k s.now tasks = n
  induction n using Nat.strong_induction_on generalizing s collected tasks with
  | _ n ih =>
    subst hn
    rcases exists_not_idle_or_idle k s.now tasks with ⟨before, t, after, rfl, hmoves⟩ | hidle
    · -- A request that can be over is over.
      simp only [List.forall_mem_append, List.forall_mem_cons] at hfits hmade
      obtain ⟨start, outcome, hstage, hshown⟩ := (Task.of_not_idle hmoves).resolve_left hmade.2.1
      obtain ⟨houtcome, hnow⟩ := hfits.2.1.of_poll hstage hshown
      have hend : lastEnd k s.now (before ++ { t with stage := .ended outcome } :: after) =
          lastEnd k s.now (before ++ t :: after) :=
        lastEnd_congr (by simp [Task.finish, hstage, hnow])
      have houtcomes :
          (before ++ { t with stage := .ended outcome } :: after).map (Task.outcome k) =
            (before ++ t :: after).map (Task.outcome k) := by simp
      refine exists_goesOn_of_step (.ends doing hstage hshown) rfl rfl (by simp) (by simp) ?_
      rw [← hend, ← houtcomes]
      refine ih _ (potential_lt_of_task ?_) rfl ?_ ?_ rfl
      · simp [Task.potential, hstage]
      · simp only [List.forall_mem_append, List.forall_mem_cons]
        exact ⟨hfits.1, houtcome, hfits.2.2⟩
      · simp only [List.forall_mem_append, List.forall_mem_cons]
        exact ⟨hmade.1, by simp, hmade.2.2⟩
    · cases tasks with
      | nil => exact ⟨_, .single (.goesOn doing), by simp, by simp, rfl, rfl, rfl, rfl⟩
      | cons t after =>
        cases hstage : t.stage with
        | handedOver => exact absurd hstage (hmade t List.mem_cons_self)
        | underWay start =>
          -- Everything waits, so a second passes.
          refine exists_goesOn_of_step (.waits doing hstage hidle) rfl rfl rfl rfl ?_
          rw [← lastEnd_wait hstage hfits hidle]
          refine ih _ (potential_wait hstage hidle) doing (fun t' ht' => ?_) hmade rfl
          exact ((hfits t' ht').wait (hidle t' ht')).1
        | ended outcome =>
          simp only [List.forall_mem_cons] at hfits hmade
          have houtcome : outcome = t.outcome k := by simpa [Task.Fits, hstage] using hfits.1
          have houtcomes : collected ++ (t :: after).map (Task.outcome k) =
              collected ++ [outcome] ++ after.map (Task.outcome k) := by simp [houtcome]
          refine exists_goesOn_of_step (.collects doing hstage) rfl rfl rfl rfl ?_
          rw [lastEnd_cons_ended hstage, houtcomes]
          refine ih _ ?_ rfl hfits.2 hmade.2 rfl
          simp [potential, Task.potential, hstage]

end Scene

end GuidedTour
