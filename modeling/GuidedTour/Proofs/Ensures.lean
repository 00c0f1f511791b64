import GuidedTour.Proofs.Round

namespace GuidedTour

/-!
# What a course comes to, whatever happens

How a run goes on depends on little: on its course, the time, the number of requests so far and
whether it was called off. `Course.Ensures` follows the course and takes both ways wherever the run
may be called off. What it ensures holds of every run (`Scene.Reaches.ensures`), in whichever order
the requests of a round end.

* `Standing` — what matters about a moment for how the run goes on;
* `Course.Ensures` — that every run from a standing comes to something that is as it should be;
* `Course.ensures_bind`, `Course.Ensures.mono` — the rules for it;
* `Scene.Ensures` — the same of a scene, also in the middle of a round.
-/

variable {k : Conditions} {α β : Type}

/-- What matters about a moment for how the run goes on. -/
structure Standing where
  milestones : List Milestone
  now : Nat
  asked : Nat
  isCancelled : Bool

namespace Standing

/-- A milestone is reached. -/
def reach (milestone : Milestone) (st : Standing) : Standing :=
  { st with milestones := st.milestones ++ [milestone] }

/-- The run is called off. -/
def callOff (st : Standing) : Standing := { st with isCancelled := true }

/-- The requests of a round are over. -/
def afterRound (k : Conditions) (requests : List Request) (st : Standing) : Standing :=
  { st with
    now := lastEnd k st.now (tasksFrom st.asked requests)
    asked := st.asked + requests.length }

end Standing

/-- How the requests of a round end, of which the first has a number. -/
def Conditions.outcomes (k : Conditions) (first : Nat) (requests : List Request) : List Outcome :=
  (tasksFrom first requests).map (Task.outcome k)

/-- Where a scene stands. -/
def Scene.standing (s : Scene α) : Standing :=
  ⟨milestonesIn s.history, s.now, s.asked, s.isCancelled⟩

/-- Every run from a standing comes to a result that is as it should be. -/
def Course.Ensures (k : Conditions) (Q : Standing → α → Prop) : Course α → Standing → Prop
  | finished result, st => Q st result
  | reports milestone rest, st =>
    rest.Ensures k Q (st.reach milestone) ∧ rest.Ensures k Q (st.reach milestone).callOff
  | looks rest, st => (rest st.isCancelled).Ensures k Q st
  | asks requests rest, st =>
    (rest (k.outcomes st.asked requests)).Ensures k Q (st.afterRound k requests) ∧
      (rest (k.outcomes st.asked requests)).Ensures k Q (st.afterRound k requests).callOff

namespace Course

variable {Q R : Standing → α → Prop}

/-- What is ensured stays so when less is asked for. -/
theorem Ensures.mono (h : ∀ st result, Q st result → R st result) {c : Course α} {st : Standing}
    (hc : c.Ensures k Q st) : c.Ensures k R st := by
  induction c generalizing st with
  | finished result => exact h st result hc
  | reports milestone rest ih => exact ⟨ih hc.1, ih hc.2⟩
  | looks rest ih => exact ih _ hc
  | asks requests rest ih => exact ⟨ih _ hc.1, ih _ hc.2⟩

/-- One course after another ensures what the second does wherever the first may end. -/
theorem ensures_bind {Q : Standing → β → Prop} {c : Course α} {next : α → Course β}
    {st : Standing} :
    (c >>= next).Ensures k Q st ↔
      c.Ensures k (fun st result => (next result).Ensures k Q st) st := by
  induction c generalizing st with
  | finished result => rfl
  | reports milestone rest ih => exact and_congr ih ih
  | looks rest ih => exact ih _
  | asks requests rest ih => exact and_congr (ih _) (ih _)

end Course

/-- Every run from a scene comes to a result that is as it should be. In the middle of a round the
outcomes that are still to come and the time of the last of them are known. -/
def Scene.Ensures (k : Conditions) (Q : Standing → α → Prop) (s : Scene α) : Prop :=
  match s.activity with
  | .going course => course.Ensures k Q s.standing
  | .waiting collected tasks rest =>
    (∀ t ∈ tasks, t.Fits k s.now) ∧
      let st := { s.standing with now := lastEnd k s.now tasks }
      let course := rest (collected ++ tasks.map (Task.outcome k))
      course.Ensures k Q st ∧ course.Ensures k Q st.callOff

namespace Scene

variable {Q : Standing → α → Prop} {s s' : Scene α}

/-- What a scene ensures it ensures after every step. -/
theorem Step.ensures (h : Step k s s') (hs : s.Ensures k Q) : s'.Ensures k Q := by
  obtain ⟨activity, history, now, asked, isCancelled⟩ := s
  cases h with
  | reports doing =>
    obtain rfl := doing
    simpa [Ensures, standing, Standing.reach] using hs.1
  | reportsCallingOff doing =>
    obtain rfl := doing
    simpa [Ensures, standing, Standing.reach, Standing.callOff] using hs.2
  | looks doing =>
    obtain rfl := doing
    exact hs
  | asks doing =>
    obtain rfl := doing
    refine ⟨fun t ht => ?_, hs⟩
    simp [Task.Fits, (mem_tasksFrom ht).1]
  | @makes _ before t after _ doing due =>
    obtain rfl := doing
    obtain ⟨hfits, hrest⟩ := hs
    -- The request was to take its whole time from now on, and does so.
    have hend : lastEnd k now (before ++ { t with stage := .underWay now } :: after) =
        lastEnd k now (before ++ t :: after) := lastEnd_congr (by simp [Task.finish, due])
    simp only [List.forall_mem_append, List.forall_mem_cons] at hfits
    refine ⟨?_, ?_⟩
    · simp only [List.forall_mem_append, List.forall_mem_cons]
      exact ⟨hfits.1, by simp [Task.Fits], hfits.2.2⟩
    · simpa [standing, hend] using hrest
  | @ends _ before t after _ start outcome doing made shown =>
    obtain rfl := doing
    obtain ⟨hfits, hrest⟩ := hs
    simp only [List.forall_mem_append, List.forall_mem_cons] at hfits
    -- Its end is now, and it shows the outcome that was counted on.
    obtain ⟨houtcome, hnow⟩ := hfits.2.1.of_poll made shown
    have hend : lastEnd k now (before ++ { t with stage := .ended outcome } :: after) =
        lastEnd k now (before ++ t :: after) := lastEnd_congr (by simp [Task.finish, made, hnow])
    refine ⟨?_, ?_⟩
    · simp only [List.forall_mem_append, List.forall_mem_cons]
      exact ⟨hfits.1, houtcome, hfits.2.2⟩
    · simpa [standing, hend] using hrest
  | @collects _ t after _ outcome doing settled =>
    obtain rfl := doing
    obtain ⟨hfits, hrest⟩ := hs
    simp only [List.forall_mem_cons] at hfits
    -- The outcome moves from the tasks to what is collected, in the same place.
    have houtcome : outcome = t.outcome k := by simpa [Task.Fits, settled] using hfits.1
    refine ⟨hfits.2, ?_⟩
    simpa [standing, houtcome, lastEnd_cons_ended settled] using hrest
  | goesOn doing =>
    obtain rfl := doing
    simpa [Ensures, standing] using hs.2.1
  | callsOff doing =>
    obtain rfl := doing
    exact ⟨hs.1, by simpa [standing, Standing.callOff] using hs.2.2⟩
  | @waits _ t after _ start doing made idle =>
    obtain rfl := doing
    refine ⟨fun t' ht' => ((hs.1 t' ht').wait (idle t' ht')).1, ?_⟩
    simpa [standing, lastEnd_wait made hs.1 idle] using hs.2

/-- What a scene ensures holds of every result that it comes to. -/
theorem Reaches.ensures (h : Reaches k s s') (hs : s.Ensures k Q) : s'.Ensures k Q := by
  induction h with
  | refl => exact hs
  | tail _ hstep ih => exact hstep.ensures ih

/-- A run that has come to a result has come to what its course ensures. -/
theorem Reaches.result {c : Course α} {result : α} (h : Reaches k s s')
    (hgoing : s.activity = .going c) (hc : c.Ensures k Q s.standing)
    (hfinished : s'.activity = .going (.finished result)) : Q s'.standing result := by
  have hs : s.Ensures k Q := by simpa only [Ensures, hgoing] using hc
  simpa only [Ensures, hfinished, Course.Ensures] using h.ensures hs

end Scene

end GuidedTour
