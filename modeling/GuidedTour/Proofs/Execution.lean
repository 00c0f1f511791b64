import GuidedTour.Proofs.Completion

namespace GuidedTour

/-!
# Carrying out a course is one of its runs

`Course.execute` makes the requests of a round one after another and waits for the last of them.
This is one of the orders in which things may happen, so that everything that holds of all runs
holds of it (`Course.exists_run`).

* `Scene.Mirrors` — a scene and a journal tell the same;
* `Course.exists_run` — a run that ends as the course does that is carried out.
-/

variable {α : Type} {around : Surroundings} {deadline : Nat}

/-! ### What is written into the journal -/

namespace Journal

variable {j : Journal} {milestone : Milestone} {request : Request}

@[simp] theorem cancelIf_exchanges (j : Journal) (b : Bool) :
    (j.cancelIf b).exchanges = j.exchanges := by
  cases b <;> simp [cancelIf, cancel, add, exchanges]

@[simp] theorem cancelIf_milestones (j : Journal) (b : Bool) :
    (j.cancelIf b).milestones = j.milestones := by
  cases b <;> simp [cancelIf, cancel, add, milestones]

@[simp] theorem cancelIf_now (j : Journal) (b : Bool) : (j.cancelIf b).now = j.now := by
  cases b <;> rfl

@[simp] theorem cancelIf_isCancelled (j : Journal) (b : Bool) :
    (j.cancelIf b).isCancelled = (j.isCancelled || b) := by
  cases b <;> simp [cancelIf, cancel, add]

@[simp] theorem add_reached_exchanges (j : Journal) (milestone : Milestone) :
    (j.add (.reached milestone)).exchanges = j.exchanges := by
  simp [add, exchanges]

@[simp] theorem add_asked_exchanges (j : Journal) (x : Exchange) :
    (j.add (.asked x)).exchanges = j.exchanges ++ [x] := by
  simp [add, exchanges]

@[simp] theorem add_reached_milestones (j : Journal) (milestone : Milestone) :
    (j.add (.reached milestone)).milestones = j.milestones ++ [milestone] := by
  simp [add, milestones]

@[simp] theorem add_asked_milestones (j : Journal) (x : Exchange) :
    (j.add (.asked x)).milestones = j.milestones := by
  simp [add, milestones]

@[simp] theorem add_now (j : Journal) (e : Event) : (j.add e).now = j.now := rfl

@[simp] theorem add_isCancelled (j : Journal) (e : Event) :
    (j.add e).isCancelled = j.isCancelled := rfl

/-- What the journal tells of a task that is made. -/
def exchange (k : Conditions) (now : Nat) (t : Task) : Exchange :=
  ⟨t.request, now, now + t.duration k, t.outcome k⟩

/-- A request is written down as its exchange: what is asked and when, and how it ends. -/
theorem ask_eq (j : Journal) (request : Request) :
    j.ask around deadline request =
      let x :=
        exchange (around.conditions deadline) j.now ⟨j.exchanges.length, request, .handedOver⟩
      ((j.add (.asked x)).cancelIf (around.service j.exchanges.length request).cancels, x) := rfl

/-- The exchanges of a round are those of its tasks. -/
theorem askAll_exchanges (j : Journal) (requests : List Request) :
    (j.askAll around deadline requests).2 =
      (tasksFrom j.exchanges.length requests).map
        (exchange (around.conditions deadline) j.now) := by
  induction requests generalizing j with
  | nil => rfl
  | cons request rest ih =>
    simp only [askAll, tasksFrom, List.map_cons, ask_eq]
    rw [ih]
    simp

/-- A round is written down as the exchanges that it hands on. -/
theorem askAll_fst_exchanges (j : Journal) (requests : List Request) :
    (j.askAll around deadline requests).1.exchanges =
      j.exchanges ++ (j.askAll around deadline requests).2 := by
  induction requests generalizing j with
  | nil => simp [askAll]
  | cons request rest ih =>
    simp only [askAll, ask_eq]
    rw [ih]
    simp

@[simp] theorem askAll_now (j : Journal) (requests : List Request) :
    (j.askAll around deadline requests).1.now = j.now := by
  induction requests generalizing j with
  | nil => rfl
  | cons request rest ih =>
    simp only [askAll, ask_eq]
    rw [ih]
    simp

/-- The run waits for a round until the last of its tasks is over. -/
theorem await_askAll_now (j : Journal) (requests : List Request) :
    ((j.askAll around deadline requests).1.await (j.askAll around deadline requests).2).now =
      lastEnd (around.conditions deadline) j.now (tasksFrom j.exchanges.length requests) := by
  simp only [await, askAll_now, askAll_exchanges, lastEnd, List.map_map]
  congr 1
  refine List.map_congr_left fun t ht => ?_
  simp [exchange, Task.finish, (mem_tasksFrom ht).1]

end Journal

/-! ### Scenes and journals -/

namespace Scene

/-- A scene tells what a journal tells that goes on from an earlier one. -/
structure Mirrors (past : Journal) (s : Scene α) (j : Journal) : Prop where
  now : s.now = j.now
  isCancelled : s.isCancelled = j.isCancelled
  milestones : j.milestones = past.milestones ++ milestonesIn s.history
  requests : j.exchanges.map Exchange.request =
    past.exchanges.map Exchange.request ++ (requestsIn s.history).map Prod.snd

variable {past j : Journal} {s : Scene α}

/-- A scene at its start mirrors the journal at which it starts. -/
theorem Mirrors.start (past : Journal) (course : Course α) :
    (start past course).Mirrors past past := by
  refine ⟨rfl, rfl, ?_, ?_⟩ <;> cases h : past.isCancelled <;>
    simp [Scene.start, h]

/-- What the run is doing cannot be seen. -/
theorem Mirrors.turn (h : s.Mirrors past j) (activity : Activity α) (asked : Nat) :
    ({ s with activity, asked } : Scene α).Mirrors past j :=
  ⟨h.now, h.isCancelled, h.milestones, h.requests⟩

/-- A milestone is reported as the surroundings have it. -/
theorem Mirrors.exists_report (around : Surroundings) (k : Conditions) {milestone : Milestone}
    {rest : Course α} (h : s.Mirrors past j)
    (doing : s.activity = .going (.reports milestone rest)) :
    ∃ s', Step k s s' ∧ s'.Mirrors past (j.report around milestone) ∧
      s'.activity = .going rest ∧ s'.asked = s.asked := by
  -- The observer calls the run off here at most once; a second call changes nothing.
  by_cases hcalls : around.callsOffAt milestone = true ∧ s.isCancelled = false
  · refine ⟨_, .reportsCallingOff doing hcalls.2, ⟨?_, ?_, ?_, ?_⟩, rfl, rfl⟩
    · simp [Journal.report, h.now]
    · simp [Journal.report, hcalls.1]
    · simp [Journal.report, h.milestones]
    · simp [Journal.report, h.requests]
  · refine ⟨_, .reports doing, ⟨?_, ?_, ?_, ?_⟩, rfl, rfl⟩
    · simp [Journal.report, h.now]
    · have hflag := h.isCancelled
      cases hj : j.isCancelled <;> simp_all [Journal.report]
    · simp [Journal.report, h.milestones]
    · simp [Journal.report, h.requests]

/-- A request is made, and the run is called off meanwhile if the service has it so. -/
theorem Mirrors.exists_made (around : Surroundings) (deadline : Nat) {collected : List Outcome}
    {before after : List Task} {request : Request} {rest : List Outcome → Course α}
    (h : s.Mirrors past j)
    (doing : s.activity = .waiting collected
      (before ++ ⟨j.exchanges.length, request, .handedOver⟩ :: after) rest) :
    ∃ s', Reaches (around.conditions deadline) s s' ∧
      s'.Mirrors past (j.ask around deadline request).1 ∧ s'.asked = s.asked ∧
      s'.activity = .waiting collected
        (before ++ ⟨j.exchanges.length, request, .underWay j.now⟩ :: after) rest := by
  have hmade := Step.makes (k := around.conditions deadline) doing rfl
  simp only [h.now] at hmade
  -- The journal notes it also when the run was called off before; in a scene that changes nothing.
  by_cases hcalls : (around.service j.exchanges.length request).cancels = true ∧
      s.isCancelled = false
  · refine ⟨_, .tail (.single hmade) (.callsOff rfl hcalls.2), ⟨?_, ?_, ?_, ?_⟩, rfl, rfl⟩
    · simp [Journal.ask_eq]
    · simp [Journal.ask_eq, hcalls.1]
    · simp [Journal.ask_eq, h.milestones]
    · simp [Journal.ask_eq, h.requests, Journal.exchange]
  · refine ⟨_, .single hmade, ⟨?_, ?_, ?_, ?_⟩, rfl, rfl⟩
    · simp [Journal.ask_eq]
    · have hflag := h.isCancelled
      cases hj : j.isCancelled <;> simp_all [Journal.ask_eq]
    · simp [Journal.ask_eq, h.milestones]
    · simp [Journal.ask_eq, h.requests, Journal.exchange]

/-- All requests of a round are made, one after another. -/
theorem Mirrors.exists_allMade (around : Surroundings) (deadline : Nat) {collected : List Outcome}
    {before : List Task} {requests : List Request} {rest : List Outcome → Course α}
    (h : s.Mirrors past j)
    (doing : s.activity = .waiting collected
      (before ++ tasksFrom j.exchanges.length requests) rest) :
    ∃ s', Reaches (around.conditions deadline) s s' ∧
      s'.Mirrors past (j.askAll around deadline requests).1 ∧ s'.asked = s.asked ∧
      s'.activity = .waiting collected
        (before ++ (tasksFrom j.exchanges.length requests).map
          fun t => { t with stage := .underWay j.now }) rest := by
  -- Each request that is made joins those before it.
  induction requests generalizing s j before with
  | nil => exact ⟨s, .refl, h, rfl, doing⟩
  | cons request others ih =>
    obtain ⟨s₁, hfirst, hmirrors, hasked, hdoing⟩ := h.exists_made around deadline doing
    have hnumber : (j.ask around deadline request).1.exchanges.length = j.exchanges.length + 1 := by
      simp [Journal.ask_eq]
    have hnow : (j.ask around deadline request).1.now = j.now := by simp [Journal.ask_eq]
    rw [List.append_cons, ← hnumber] at hdoing
    obtain ⟨s₂, hothers, hmirrors, hasked', hdoing⟩ := ih hmirrors hdoing
    refine ⟨s₂, hfirst.trans hothers, hmirrors, hasked'.trans hasked, ?_⟩
    simpa [tasksFrom, hnumber, hnow] using hdoing

/-- A round is made and waited for. -/
theorem Mirrors.exists_round (around : Surroundings) (deadline : Nat) {requests : List Request}
    {rest : List Outcome → Course α} (h : s.Mirrors past j) (hasked : s.asked = j.exchanges.length)
    (doing : s.activity = .going (.asks requests rest)) :
    let made := j.askAll around deadline requests
    ∃ s', Reaches (around.conditions deadline) s s' ∧ s'.Mirrors past (made.1.await made.2) ∧
      s'.asked = made.1.exchanges.length ∧
      s'.activity = .going (rest (made.2.map Exchange.outcome)) := by
  have hasks := Step.asks (k := around.conditions deadline) doing
  rw [hasked] at hasks
  -- All requests are made at once, and then the round ends without being disturbed.
  have hwaiting : Activity.waiting [] (tasksFrom j.exchanges.length requests) rest =
      .waiting [] ([] ++ tasksFrom j.exchanges.length requests) rest := rfl
  obtain ⟨s₁, hmade, hmirrors, hasked₁, hdoing₁⟩ :=
    (h.turn _ (j.exchanges.length + requests.length)).exists_allMade around deadline hwaiting
  have hnow : s₁.now = j.now := by simp [hmirrors.now]
  obtain ⟨s₂, hend⟩ := exists_round_end (k := around.conditions deadline) hdoing₁
    (by simp [Task.Fits, hnow]) (by simp)
  refine ⟨s₂, .head hasks (hmade.trans hend.reaches), ⟨?_, ?_, ?_, ?_⟩, ?_, ?_⟩
  · rw [hend.now, Journal.await_askAll_now, hnow, List.nil_append, lastEnd_allMade]
  · exact hend.isCancelled.trans hmirrors.isCancelled
  · rw [hend.milestones]
    exact hmirrors.milestones
  · rw [hend.requests]
    exact hmirrors.requests
  · rw [hend.asked, hasked₁, Journal.askAll_fst_exchanges, Journal.askAll_exchanges]
    simp
  · rw [hend.activity, Journal.askAll_exchanges]
    simp [Journal.exchange, Function.comp_def]

/-- A run that goes on as the course does that is carried out. -/
theorem Mirrors.exists_run (around : Surroundings) (deadline : Nat) {c : Course α}
    (h : s.Mirrors past j) (hasked : s.asked = j.exchanges.length) (doing : s.activity = .going c) :
    ∃ s', Reaches (around.conditions deadline) s s' ∧
      s'.Mirrors past (c.execute around deadline j).1 ∧
      s'.asked = (c.execute around deadline j).1.exchanges.length ∧
      s'.activity = .going (.finished (c.execute around deadline j).2) := by
  -- The induction is on what is left to do, with the scene that has come to it.
  induction c generalizing s j with
  | finished result => exact ⟨s, .refl, h, hasked, doing⟩
  | reports milestone rest ih =>
    obtain ⟨s₁, hstep, hmirrors, hdoing, hasked₁⟩ :=
      h.exists_report around (around.conditions deadline) doing
    have hlength : s₁.asked = (j.report around milestone).exchanges.length := by
      simp [hasked₁, hasked, Journal.report]
    obtain ⟨s₂, hrun, hend⟩ := ih hmirrors hlength hdoing
    exact ⟨s₂, .head hstep hrun, hend⟩
  | looks rest ih =>
    simp only [Course.execute, ← h.isCancelled]
    obtain ⟨s₂, hrun, hend⟩ :=
      ih s.isCancelled (h.turn (.going (rest s.isCancelled)) s.asked) hasked rfl
    exact ⟨s₂, .head (.looks doing) hrun, hend⟩
  | asks requests rest ih =>
    obtain ⟨s₁, hround, hmirrors, hasked₁, hdoing⟩ := h.exists_round around deadline hasked doing
    obtain ⟨s₂, hrun, hend⟩ := ih _ hmirrors hasked₁ hdoing
    exact ⟨s₂, hround.trans hrun, hend⟩

end Scene

/-- What is carried out is what one of the runs comes to. -/
theorem Course.exists_run (around : Surroundings) (deadline : Nat) (past : Journal)
    (c : Course α) :
    ∃ s, Scene.Reaches (around.conditions deadline) (Scene.start past c) s ∧
      s.Mirrors past (c.execute around deadline past).1 ∧
      s.activity = .going (.finished (c.execute around deadline past).2) := by
  obtain ⟨s, hrun, hmirrors, -, hdoing⟩ :=
    (Scene.Mirrors.start past c).exists_run around deadline rfl rfl
  exact ⟨s, hrun, hmirrors, hdoing⟩

end GuidedTour
