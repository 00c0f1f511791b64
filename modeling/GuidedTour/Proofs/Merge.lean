import GuidedTour.Proofs.Chunks
import GuidedTour.Proofs.Execution
import GuidedTour.Proofs.Order

namespace GuidedTour

/-!
# What the batches bring together

Every batch brings what its own request brings, whatever becomes of the others: its drafts if it is
answered in time, and else nothing but a failure. `IsMerge` states this of the groups that were
started.

* `Ending.contribution`, `Ending.fails` — what a single request brings;
* `groupsCourse_ensures` — what asking group by group comes to, in every order of things;
* `batches_merge` — the drafts are those of the started groups in the order of the batches.
-/

/-! ### A single request -/

namespace Ending

/-- The drafts that a request brings before the deadline. -/
def contribution (deadline : Nat) : Ending → List Draft
  | crashesAfter _ => []
  | never => []
  | answers _ (.error _) => []
  | answers delay (.ok response) =>
    if delay ≤ deadline then Answer.drafts response.text.toList else []

/-- Whether a request crashes, fails, or is not answered before the deadline. -/
def fails (deadline : Nat) : Ending → Bool
  | crashesAfter _ => true
  | never => true
  | answers _ (.error _) => true
  | answers delay (.ok _) => deadline < delay

/-- What a request brings in under the deadline is its contribution. -/
theorem drafts_within (deadline : Nat) (e : Ending) :
    (e.within deadline).2.drafts = e.contribution deadline := by
  cases e with
  | never => rfl
  | crashesAfter delay =>
    by_cases h : delay ≤ deadline <;> simp [within, contribution, h, Outcome.drafts, Outcome.text?]
  | answers delay result =>
    cases result <;> by_cases h : delay ≤ deadline <;>
      simp [within, contribution, h, Outcome.drafts, Outcome.text?, Outcome.ofResult]

/-- A request fails under the deadline if it brings no answer. -/
theorem not_isAnswer_within (deadline : Nat) (e : Ending) :
    (!(e.within deadline).2.isAnswer) = e.fails deadline := by
  cases e with
  | never => rfl
  | crashesAfter delay =>
    by_cases h : delay ≤ deadline <;> simp [within, fails, h, Outcome.isAnswer, Outcome.text?]
  | answers delay result =>
    by_cases h : delay ≤ deadline
    · have hlate : ¬ deadline < delay := by omega
      cases result <;>
        simp [within, fails, h, hlate, Outcome.isAnswer, Outcome.text?, Outcome.ofResult]
    · have hlate : deadline < delay := by omega
      cases result <;> simp [within, fails, h, hlate, Outcome.isAnswer, Outcome.text?]

end Ending

/-- How requests end, of which the first has a number. -/
def Conditions.endingsFrom (k : Conditions) (first : Nat) (requests : List Request) :
    List Ending :=
  (numbered first requests).map fun (number, request) => k.endings number request

variable {k : Conditions} {α : Type}

theorem Conditions.outcomes_eq (k : Conditions) (first : Nat) (requests : List Request) :
    k.outcomes first requests =
      (k.endingsFrom first requests).map fun e => (e.within k.deadline).2 := by
  simp only [outcomes, endingsFrom, numbered, List.map_map]
  rfl

/-- The outcomes of two rows of requests follow one another, and so do their numbers. -/
theorem Conditions.outcomes_append (k : Conditions) (first : Nat) (requests more : List Request) :
    k.outcomes first (requests ++ more) =
      k.outcomes first requests ++ k.outcomes (first + requests.length) more := by
  simp [outcomes, tasksFrom_append]

/-- The result of some outcomes in terms of the single requests. -/
theorem BatchResult.ofOutcomes_outcomes (k : Conditions) (total first : Nat)
    (requests : List Request) :
    BatchResult.ofOutcomes total (k.outcomes first requests) =
      ⟨(k.endingsFrom first requests).flatMap (Ending.contribution k.deadline), total,
        (k.endingsFrom first requests).countP (Ending.fails k.deadline)⟩ := by
  simp only [ofOutcomes, k.outcomes_eq, List.flatMap_map, List.countP_map, Ending.drafts_within]
  congr 2
  funext e
  exact Ending.not_isAnswer_within k.deadline e

/-! ### Group by group -/

/-- What asking group by group comes to: the groups are started in their order until the run is
called off. -/
structure GroupsEnd (k : Conditions) (total index : Nat) (groups : List (List Request))
    (before after : Standing) (started : Nat) (outcomes : List Outcome) : Prop where
  started_le : started ≤ groups.length
  milestones : after.milestones =
    before.milestones ++ (List.range' index started).map fun i => .batchGroup i total
  outcomes : outcomes = k.outcomes before.asked (groups.take started).flatten
  time : after.now ≤ before.now + started * k.deadline
  complete : after.isCancelled = false → started = groups.length

/-- A group is over, and the groups after it end in their way. -/
theorem GroupsEnd.cons {total index started : Nat} {group : List Request}
    {rest : List (List Request)} {st st' st'' : Standing} {others : List Outcome}
    (hmilestones : st'.milestones = st.milestones ++ [.batchGroup index total])
    (hnow : st'.now ≤ st.now + k.deadline) (hasked : st'.asked = st.asked + group.length)
    (h : GroupsEnd k total (index + 1) rest st' st'' started others) :
    GroupsEnd k total index (group :: rest) st st'' (started + 1)
      (k.outcomes st.asked group ++ others) where
  started_le := by simpa using h.started_le
  milestones := by simp [h.milestones, hmilestones, List.range'_succ]
  outcomes := by simp [h.outcomes, hasked, Conditions.outcomes_append]
  time := by
    have htime := h.time
    rw [Nat.succ_mul]
    omega
  complete hflag := by simpa using h.complete hflag

/-- Group by group, what was collected is what the started groups end with. -/
theorem groupsCourse_ensures (k : Conditions) (total index : Nat) (groups : List (List Request))
    (st : Standing) :
    (groupsCourse total index groups).Ensures k
      (fun st' outcomes => ∃ started, GroupsEnd k total index groups st st' started outcomes)
      st := by
  induction groups generalizing index st with
  | nil => exact ⟨0, by simp, by simp, rfl, by simp, by simp⟩
  | cons group rest ih =>
    have hnow := lastEnd_tasksFrom_le k st.now st.asked group
    -- However the run was called off meanwhile, the group is over in the same way.
    have hgroup : ∀ isCancelled,
        (do
          let others ← groupsCourse total (index + 1) rest
          pure (k.outcomes st.asked group ++ others) : Course (List Outcome)).Ensures k
            (fun st' outcomes =>
              ∃ started, GroupsEnd k total index (group :: rest) st st' started outcomes)
            { (st.reach (.batchGroup index total)).afterRound k group with isCancelled } := by
      intro isCancelled
      refine Course.ensures_bind.mpr ((ih (index + 1) _).mono ?_)
      rintro st' others ⟨started, hend⟩
      exact ⟨started + 1, .cons rfl hnow rfl hend⟩
    show ((if st.isCancelled then pure [] else _ : Course (List Outcome)).Ensures k _ st)
    cases hflag : st.isCancelled with
    | true => exact ⟨0, by simp, by simp, rfl, by simp, by simp [hflag]⟩
    | false => exact ⟨⟨hgroup _, hgroup _⟩, ⟨hgroup _, hgroup _⟩⟩

/-! ### All batches -/

/-- What a run over all batches brought, `width` requests at once. The first of them has a number,
and `started` groups were asked for. -/
structure IsMerge (k : Conditions) (first width : Nat) (requests : List Request) (started : Nat)
    (history : List Happening) (result : BatchResult) : Prop where
  /-- The started groups are the first ones, in their order. -/
  announced : milestonesIn history =
    (List.range' 1 started).map fun index => .batchGroup index (requests.length ⌈/⌉ width)
  /-- The requests of the started groups were made, each of them once, and no others. -/
  requested : (requestsIn history).Perm (numbered first (requests.take (started * width)))
  /-- Each of them was over. -/
  ended : (endedIn history).Perm (List.range' first (requests.take (started * width)).length)
  /-- The drafts are what each of them brings by itself, in the order of the batches. -/
  drafts : result.drafts =
    (k.endingsFrom first (requests.take (started * width))).flatMap (Ending.contribution k.deadline)
  /-- The failures are those that fail by themselves. -/
  failures : result.failedBatches =
    (k.endingsFrom first (requests.take (started * width))).countP (Ending.fails k.deadline)
  total : result.totalBatches = requests.length
  /-- A run that is not called off starts every group. -/
  complete : .calledOff ∉ history →
    started = requests.length ⌈/⌉ width ∧ requests.take (started * width) = requests
  /-- A run that is called off starts no group after that. -/
  stopped : ∀ before after, history = before ++ .calledOff :: after →
    (milestonesIn before).length = started

section Batches

variable (options : BatchOptions) (model : Option String) (project : String)
  (batches : List Batch)

/-- The requests of all batches. -/
def batchRequests : List Request := batches.map fun b => b.request model project

/-- How many groups there are: the number of requests over the width, rounded up. -/
theorem requestGroups_length : (requestGroups options model project batches).length =
    (batchRequests model project batches).length ⌈/⌉ max 1 options.concurrency :=
  chunks_length _ _

/-- The first groups are the first requests. -/
theorem requestGroups_take_flatten (n : Nat) :
    ((requestGroups options model project batches).take n).flatten =
      (batchRequests model project batches).take (n * max 1 options.concurrency) :=
  chunks_take_flatten _ _ n

/-- The beginning of a run over all batches. -/
def batchesStart (past : Journal) : Scene BatchResult :=
  .start past (batchesCourse options model project batches)

/-- What is asked is what one of the runs comes to. -/
theorem askBatches_exists_run (around : Surroundings) (past : Journal) :
    let asked := askBatches around options model project batches past
    ∃ s, Scene.Reaches (around.conditions options.timeout)
        (batchesStart options model project batches past) s ∧
      s.Mirrors past asked.1 ∧ s.activity = .going (.finished asked.2) :=
  (batchesCourse options model project batches).exists_run around options.timeout past

/-- Whatever order things happen in, the batches bring what the started groups bring. -/
theorem isMerge_of_finished {past : Journal} {s : Scene BatchResult} {result : BatchResult}
    (hrun : Scene.Reaches k (batchesStart options model project batches past) s)
    (hfinished : s.activity = .going (.finished result)) :
    ∃ started, IsMerge k past.exchanges.length (max 1 options.concurrency)
      (batchRequests model project batches) started s.history result := by
  have hensures : (batchesCourse options model project batches).Ensures k
      (fun st' result => ∃ started outcomes,
        GroupsEnd k (requestGroups options model project batches).length 1
          (requestGroups options model project batches)
          (batchesStart options model project batches past).standing st' started outcomes ∧
          result = .ofOutcomes batches.length outcomes)
      (batchesStart options model project batches past).standing := by
    refine Course.ensures_bind.mpr ((groupsCourse_ensures k _ 1 _ _).mono ?_)
    rintro st' outcomes ⟨started, hend⟩
    exact ⟨started, outcomes, hend, rfl⟩
  obtain ⟨started, outcomes, hend, rfl⟩ := hrun.result rfl hensures hfinished
  -- What comes out is known from the course, what was asked for from the order of the run.
  have horder : s.InOrder past.exchanges.length (batchRounds options model project batches) :=
    hrun.inOrder (.start past (batchesCourse_follows _ _ _ _)
      fun _ => batchesCourse_isQuiet _ _ _ _)
  obtain ⟨earlier, later, hrounds, hannounced, hmade, hover⟩ := horder.of_finished hfinished
  have hmilestones := hend.milestones
  simp only [Scene.standing, batchesStart, Scene.start_milestones, List.nil_append,
    requestGroups_length] at hmilestones
  -- Every milestone announces a group, so the rounds that were announced are the started groups.
  have hloud : ∀ milestone ∈ milestonesIn s.history, milestone.announces = true := by
    rw [hmilestones]
    intro milestone hmem
    obtain ⟨index, -, rfl⟩ := List.mem_map.mp hmem
    rfl
  have hcount : earlier.length = started := by
    rw [announcementsIn, List.filter_eq_self.mpr hloud, hmilestones] at hannounced
    simpa using (congrArg List.length hannounced).symm
  have hasked : requestsOf earlier =
      (batchRequests model project batches).take (started * max 1 options.concurrency) := by
    have htake : (batchRounds options model project batches).take earlier.length = earlier := by
      rw [hrounds, List.take_left]
    rw [← requestGroups_take_flatten, ← hcount, ← requestsOf_take_announced]
    exact congrArg requestsOf htake.symm
  have hresult := BatchResult.ofOutcomes_outcomes k batches.length past.exchanges.length
    ((batchRequests model project batches).take (started * max 1 options.concurrency))
  rw [hend.outcomes, requestGroups_take_flatten]
  rw [hasked] at hmade hover
  refine ⟨started, hmilestones, hmade, hover, congrArg BatchResult.drafts hresult,
    congrArg BatchResult.failedBatches hresult, (List.length_map _).symm, fun hrunning => ?_,
    fun before after heq => ?_⟩
  · -- Without a call-off the course ends only behind the last group.
    have hall : started = (requestGroups options model project batches).length :=
      hend.complete (Bool.eq_false_iff.mpr fun hcalled => hrunning (horder.flag.mp hcalled))
    refine ⟨hall.trans (requestGroups_length _ _ _ _), ?_⟩
    rw [← requestGroups_take_flatten, hall, List.take_length]
    exact chunks_flatten _ _
  · -- After a call-off nothing is announced, but every milestone here announces a group.
    have hnone : milestonesIn after = [] := by
      refine List.eq_nil_iff_forall_not_mem.mpr fun milestone hmem => ?_
      have hquiet := horder.heeded before after heq milestone hmem
      rw [hloud milestone (by simp [heq, hmem])] at hquiet
      cases hquiet
    rw [heq] at hmilestones
    simpa [hnone] using congrArg List.length hmilestones

/-- **Batches merge in order, and a failure stays alone.** Every run over some batches comes to a
result, whatever order requests are made and end in and whenever it is called off. The result is
the merge of what the started groups bring by themselves. What is asked is one of these results. -/
theorem batches_merge (around : Surroundings) (past : Journal) :
    let k := around.conditions options.timeout
    let start := batchesStart options model project batches past
    Scene.Inevitable k Scene.IsFinished start ∧
      (∀ s result, Scene.Reaches k start s → s.activity = .going (.finished result) →
        ∃ started, IsMerge k past.exchanges.length (max 1 options.concurrency)
          (batchRequests model project batches) started s.history result) ∧
      ∃ s, Scene.Reaches k start s ∧
        s.Mirrors past (askBatches around options model project batches past).1 ∧
        s.activity = .going (.finished (askBatches around options model project batches past).2) :=
  ⟨Scene.inevitably_finished _ _, fun _ _ => isMerge_of_finished _ _ _ _,
    askBatches_exists_run _ _ _ _ around past⟩

/-- The batch that is answered last brings the first draft, and one that is never answered takes
nothing from the others. -/
example :
    let brings (delay : Nat) (title : String) : Ending :=
      .answers delay (.ok ⟨"[\x7b\"title\":\"" ++ title ++ "\"\x7d]", none⟩)
    let endings : List Ending := [brings 4 "Parser", .never, brings 0 "Printer"]
    let around : Surroundings := ⟨fun number _ => ⟨false, endings.getD number .never⟩, fun _ => false⟩
    (askBatches around { concurrency := 3, timeout := 5 } none "calc"
        [⟨[], ""⟩, ⟨[], ""⟩, ⟨[], ""⟩] (.empty false)).2 =
      ⟨[{ title := "Parser" }, { title := "Printer" }], 3, 1⟩ := by
  decide +kernel

end Batches

end GuidedTour
