import GuidedTour.Proofs.Tour

namespace GuidedTour

/-!
# How many requests at once, in which turn, and for how long

* `tour_keepsWidth` — a run never has more requests answered at once than it is allowed, makes each
  in the turn of its round, and is through with its batches in as many deadlines as there are
  groups.
-/

variable {k : Conditions} {workspace : Workspace} {parser : Parser} {options : RunOptions}
  {isCancelled : Bool}

/-! ### Rounds are no wider than allowed -/

/-- Announced rounds are as wide as their groups. -/
theorem announced_width {total index width : Nat} {groups : List (List Request)}
    (h : ∀ group ∈ groups, group.length ≤ width) :
    ∀ round ∈ announced total index groups, round.requests.length ≤ width := by
  intro round hround
  refine h round.requests ?_
  rw [← announced_map_requests total index groups]
  exact List.mem_map_of_mem hround

/-- No round of a run is wider than the concurrency, which counts as one at least. -/
theorem tourRounds_width (workspace : Workspace) (parser : Parser) (options : RunOptions) :
    ∀ round ∈ tourRounds workspace parser options,
      round.requests.length ≤ max 1 options.batches.concurrency := by
  intro round hround
  unfold tourRounds at hround
  split at hround
  · rcases List.mem_cons.mp hround with rfl | hbatch
    · exact Nat.le_max_left 1 _
    · exact announced_width (fun _ => length_le_of_mem_chunks) round hbatch
  · cases hround

/-! ### The journal -/

/-- The greatest number in flight is that of one part or of the other. -/
theorem maxInFlightAfter_append (earlier xs ys : List Exchange) :
    maxInFlightAfter earlier (xs ++ ys) =
      max (maxInFlightAfter earlier xs) (maxInFlightAfter (earlier ++ xs) ys) := by
  induction xs generalizing earlier with
  | nil => simp [maxInFlightAfter]
  | cons x rest ih => simp [maxInFlightAfter, ih, Nat.max_assoc]

/-- Requests that are made at once count by themselves when all earlier ones are over. -/
theorem maxInFlightAfter_le {now : Nat} {earlier xs : List Exchange} (made : List Exchange)
    (hover : ∀ y ∈ earlier, y.finish ≤ now) (hstart : ∀ x ∈ xs, x.start = now) :
    maxInFlightAfter (earlier ++ made) xs ≤ made.length + xs.length := by
  induction xs generalizing made with
  | nil => exact Nat.zero_le _
  | cons x rest ih =>
    have hrest := ih (made ++ [x]) fun y hy => hstart y (List.mem_cons_of_mem x hy)
    -- Of the requests before, only those of the same round can still be answered.
    have hnone : earlier.countP (fun y => x.start < y.finish) = 0 := by
      rw [hstart x List.mem_cons_self]
      exact List.countP_eq_zero.mpr fun y hy => by simpa using hover y hy
    have hmade : made.countP (fun y => x.start < y.finish) ≤ made.length := List.countP_le_length
    have hx : x.inFlight (earlier ++ made) ≤ made.length + 1 := by
      simp only [Exchange.inFlight, List.countP_append, hnone]
      split <;> omega
    simp only [maxInFlightAfter, List.append_assoc, List.length_append, List.length_cons,
      List.length_nil] at hrest ⊢
    omega

/-- Every request of a journal is over. -/
def Journal.IsSettled (j : Journal) : Prop := ∀ x ∈ j.exchanges, x.finish ≤ j.now

section Journal

variable (around : Surroundings) (deadline : Nat) {width : Nat} {j : Journal}

/-- Waiting for a round asks nothing more. -/
theorem Journal.await_exchanges (j : Journal) (requests : List Request) :
    let made := j.askAll around deadline requests
    (made.1.await made.2).exchanges = j.exchanges ++ made.2 :=
  askAll_fst_exchanges j requests

theorem Journal.IsSettled.report (h : j.IsSettled) (milestone : Milestone) :
    (j.report around milestone).IsSettled := by
  simpa [IsSettled, Journal.report] using h

/-- After a round is waited for, everything is over again. -/
theorem Journal.IsSettled.round (h : j.IsSettled) (requests : List Request) :
    let made := j.askAll around deadline requests
    (made.1.await made.2).IsSettled := by
  intro made x hx
  rw [await_exchanges, askAll_exchanges] at hx
  rw [await_askAll_now]
  rcases List.mem_append.mp hx with hearlier | hmade
  · exact Nat.le_trans (h x hearlier) (le_lastEnd _ _ _)
  · obtain ⟨t, ht, rfl⟩ := List.mem_map.mp hmade
    refine Nat.le_trans (Nat.le_of_eq ?_) (finish_le_lastEnd ht)
    simp [exchange, Task.finish, (mem_tasksFrom ht).1]

/-- A round adds no more than its own requests to what is answered at once. -/
theorem Journal.IsSettled.maxInFlight_round (h : j.IsSettled) (requests : List Request) :
    let made := j.askAll around deadline requests
    (made.1.await made.2).maxInFlight ≤ max j.maxInFlight requests.length := by
  intro made
  -- All requests of a round start at once, and nothing before them is in flight any more.
  have hstart : ∀ x ∈ made.2, x.start = j.now := by
    intro x hx
    simp only [made, askAll_exchanges] at hx
    obtain ⟨t, -, rfl⟩ := List.mem_map.mp hx
    rfl
  have hround := maxInFlightAfter_le [] h hstart
  have hlength : made.2.length = requests.length := by
    simp [made, askAll_exchanges]
  rw [Journal.maxInFlight, await_exchanges, maxInFlightAfter_append]
  simp only [List.append_nil, List.length_nil, Nat.zero_add, hlength] at hround
  exact Nat.max_le.mpr ⟨Nat.le_max_left _ _, Nat.le_trans hround (Nat.le_max_right _ _)⟩

/-- What is carried out keeps its width. -/
theorem Course.Follows.maxInFlight_le {α : Type} {rounds : List Round} {c : Course α}
    (h : c.Follows rounds) (hwidth : ∀ round ∈ rounds, round.requests.length ≤ width)
    (hsettled : j.IsSettled) (hj : j.maxInFlight ≤ width) :
    (c.execute around deadline j).1.maxInFlight ≤ width := by
  -- The journal is settled whenever a round begins.
  induction h generalizing j with
  | finished => exact hj
  | @reports _ milestone _ plain quiet later ih =>
    refine ih hwidth (hsettled.report around milestone) ?_
    simpa [Journal.maxInFlight, Journal.report] using hj
  | looks later ih => exact ih _ hwidth hsettled hj
  | @announces round rounds rest loud quiet later ih =>
    have hannounced := hsettled.report around round.announcement
    have hbefore : (j.report around round.announcement).maxInFlight ≤ width := by
      simpa [Journal.maxInFlight, Journal.report] using hj
    have hround := hannounced.maxInFlight_round around deadline round.requests
    refine ih _ (fun later hlater => hwidth later (List.mem_cons_of_mem round hlater))
      (hannounced.round around deadline round.requests) (Nat.le_trans hround ?_)
    exact Nat.max_le.mpr ⟨hbefore, hwidth round List.mem_cons_self⟩

end Journal

/-! ### The time of the batches -/

section Batches

variable (options : BatchOptions) (model : Option String) (project : String)
  (batches : List Batch) (past : Journal)

/-- The batches are through after as many deadlines as there are groups. -/
theorem batchesCourse_time :
    (batchesCourse options model project batches).Ensures k
      (fun st _ => st.now ≤
        past.now + batches.length ⌈/⌉ max 1 options.concurrency * k.deadline)
      (batchesStart options model project batches past).standing := by
  refine Course.ensures_bind.mpr ((groupsCourse_ensures k _ 1 _ _).mono ?_)
  rintro st outcomes ⟨started, hend⟩
  have hgroups : started * k.deadline ≤
      batches.length ⌈/⌉ max 1 options.concurrency * k.deadline := by
    refine Nat.mul_le_mul_right _ (Nat.le_trans hend.started_le (Nat.le_of_eq ?_))
    rw [requestGroups_length, batchRequests, List.length_map]
  exact Nat.le_trans hend.time (Nat.add_le_add_left hgroups past.now)

/-- All batches together take no longer than a deadline for each group. -/
theorem batches_time {s : Scene BatchResult} {result : BatchResult}
    (h : Scene.Reaches k (batchesStart options model project batches past) s)
    (hfinished : s.activity = .going (.finished result)) :
    s.now ≤ past.now + batches.length ⌈/⌉ max 1 options.concurrency * k.deadline :=
  h.result rfl (batchesCourse_time options model project batches past) hfinished

end Batches

/-- **A run keeps its width, its turns and its time.** At every moment of every run, no more
requests are being answered than may be under way at once, and every request was made in the turn
of its round: after it was announced, and after every request of the rounds before was over. The
batches come to an end after as many deadlines as there are groups, whoever never answers. -/
theorem tour_keepsWidth (around : Surroundings) (workspace : Workspace) (parser : Parser)
    (options : RunOptions) (isCancelled : Bool) :
    let k := around.conditions options.batches.timeout
    let width := max 1 options.batches.concurrency
    (∀ s, Scene.Reaches k (tourStart workspace parser options isCancelled) s →
      inFlightAfter s.history ≤ width ∧
        AllInTurn 0 (tourRounds workspace parser options) s.history) ∧
      ((generate around workspace parser options).outcome isCancelled).2.maxInFlight ≤ width ∧
      ∀ model project batches past,
        Scene.Inevitable k
          (fun s => s.IsFinished ∧
            s.now ≤ past.now + batches.length ⌈/⌉ width * options.batches.timeout)
          (batchesStart options.batches model project batches past) ∧
        (askBatches around options.batches model project batches past).1.now ≤
          past.now + batches.length ⌈/⌉ width * options.batches.timeout := by
  intro k width
  refine ⟨fun s hrun => ?_, ?_, fun model project batches past => ⟨?_, ?_⟩⟩
  · -- At any moment, what is in flight belongs to one round.
    have horder := tour_inOrder hrun
    exact ⟨horder.inFlight_le (tourRounds_width workspace parser options), horder.turns⟩
  · refine (tourCourse_follows workspace parser options).maxInFlight_le around _
      (tourRounds_width workspace parser options) ?_ (Nat.zero_le width)
    exact fun x hx => absurd hx (by simp [Journal.empty, Journal.exchanges])
  · refine ((Scene.inevitably_finished k _).and_reached .refl).mono ?_
    rintro s ⟨⟨result, hfinished⟩, hrun⟩
    exact ⟨⟨result, hfinished⟩, batches_time _ _ _ _ past hrun hfinished⟩
  · -- The run that is told by the journal is one of those that may happen.
    obtain ⟨s, hrun, hmirrors, hfinished⟩ :=
      askBatches_exists_run options.batches model project batches around past
    rw [← hmirrors.now]
    exact batches_time _ _ _ _ past hrun hfinished

end GuidedTour
