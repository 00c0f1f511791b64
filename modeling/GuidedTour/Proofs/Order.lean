import GuidedTour.Proofs.Announcing
import GuidedTour.Proofs.Round

namespace GuidedTour

/-!
# In which order requests are made

Whatever order the requests of a round are made and end in, they stay within their round. This
module keeps the books of a run (`Accounts`) and states what holds at every moment of it
(`Scene.InOrder`): a request is made in the turn of its round (`InTurn`), and nothing is announced
once the run was called off (`IsHeeded`).

* `Accounts` — which requests are made and which are over, as two permutations;
* `InTurn` — what was before a request is made: its round is the last that was announced, and all
  earlier rounds are over;
* `Scene.Step.inOrder`, `Scene.Reaches.inOrder` — every run stays in order;
* `Scene.InOrder.inFlight_le` — no more requests are being answered than a round has;
* `Scene.InOrder.after_calledOff` — what may still be asked for after the run was called off.
-/

variable {k : Conditions} {α : Type} {base : Nat}

/-! ### Books -/

/-- The number and the request of a task. -/
def Task.named (t : Task) : Nat × Request := (t.number, t.request)

/-- Whether the request is still to be made. -/
def Task.isDue (t : Task) : Bool := t.stage == .handedOver

/-- Whether the request is still to be over. -/
def Task.isOpen (t : Task) : Bool :=
  match t.stage with
  | .ended _ => false
  | _ => true

/-- Requests with their numbers, of which the first is given. -/
def numbered (first : Nat) (requests : List Request) : List (Nat × Request) :=
  (tasksFrom first requests).map Task.named

/-- The tasks of two rows of requests follow one another, and so do their numbers. -/
theorem tasksFrom_append (first : Nat) (requests more : List Request) :
    tasksFrom first (requests ++ more) =
      tasksFrom first requests ++ tasksFrom (first + requests.length) more := by
  induction requests generalizing first with
  | nil => simp [tasksFrom]
  | cons request rest ih => simp [tasksFrom, ih, Nat.add_assoc, Nat.add_comm 1]

theorem numbered_append (first : Nat) (requests more : List Request) :
    numbered first (requests ++ more) =
      numbered first requests ++ numbered (first + requests.length) more := by
  simp [numbered, tasksFrom_append]

theorem numbered_fst (first : Nat) (requests : List Request) :
    (numbered first requests).map Prod.fst = List.range' first requests.length := by
  rw [← tasksFrom_numbers, numbered, List.map_map]
  rfl

/-- The books of a run that asked for some requests, and waits for some of them. -/
structure Accounts (base : Nat) (asked : List Request) (tasks : List Task)
    (history : List Happening) : Prop where
  made : (requestsIn history ++ (tasks.filter Task.isDue).map Task.named).Perm
    (numbered base asked)
  ended : (endedIn history ++ (tasks.filter Task.isOpen).map Task.number).Perm
    (List.range' base asked.length)

namespace Accounts

variable {asked requests : List Request} {tasks before after : List Task}
  {history history' : List Happening} {t : Task} {number : Nat} {outcome : Outcome}

/-- Only requests count. -/
theorem congr (h : Accounts base asked tasks history)
    (hmade : requestsIn history' = requestsIn history)
    (hover : endedIn history' = endedIn history) :
    Accounts base asked tasks history' :=
  ⟨by simpa only [hmade] using h.made, by simpa only [hover] using h.ended⟩

/-- A round is handed over. -/
theorem ask (h : Accounts base asked [] history) (requests : List Request) :
    Accounts base (asked ++ requests) (tasksFrom (base + asked.length) requests) history := by
  -- Nothing of the new round is made yet, so all of it is due and open.
  have hstage : ∀ t ∈ tasksFrom (base + asked.length) requests, t.stage = .handedOver :=
    fun t ht => (mem_tasksFrom ht).1
  have hdue : (tasksFrom (base + asked.length) requests).filter Task.isDue =
      tasksFrom (base + asked.length) requests :=
    List.filter_eq_self.mpr fun t ht => by simp [Task.isDue, hstage t ht]
  have hopen : (tasksFrom (base + asked.length) requests).filter Task.isOpen =
      tasksFrom (base + asked.length) requests :=
    List.filter_eq_self.mpr fun t ht => by simp [Task.isOpen, hstage t ht]
  constructor
  · rw [hdue, numbered_append]
    exact (by simpa using h.made : (requestsIn history).Perm _).append_right _
  · rw [hopen, tasksFrom_numbers, List.length_append, ← List.range'_append_1]
    exact (by simpa using h.ended : (endedIn history).Perm _).append_right _

/-- A request is made. -/
theorem make (h : Accounts base asked (before ++ t :: after) history)
    (hdue : t.stage = .handedOver) (start : Nat) :
    Accounts base asked (before ++ { t with stage := .underWay start } :: after)
      (history ++ [.made t.number t.request]) := by
  constructor
  · refine List.Perm.trans ?_ h.made
    simp only [List.filter_append, List.filter_cons, Task.isDue, hdue]
    simpa [Task.named] using List.perm_middle.symm.append_left (requestsIn history)
  · simpa [List.filter_cons, Task.isOpen, hdue] using h.ended

/-- A request is over. -/
theorem finish {start : Nat} (h : Accounts base asked (before ++ t :: after) history)
    (hmade : t.stage = .underWay start) (outcome : Outcome) :
    Accounts base asked (before ++ { t with stage := .ended outcome } :: after)
      (history ++ [.ended t.number outcome]) := by
  constructor
  · simpa [List.filter_cons, Task.isDue, hmade] using h.made
  · refine List.Perm.trans ?_ h.ended
    simp only [List.filter_append, List.filter_cons, Task.isOpen, hmade]
    simpa using List.perm_middle.symm.append_left (endedIn history)

/-- A request that is over is collected. -/
theorem collect (h : Accounts base asked (t :: after) history) (hover : t.stage = .ended outcome) :
    Accounts base asked after history := by
  constructor
  · simpa [List.filter_cons, Task.isDue, hover] using h.made
  · simpa [List.filter_cons, Task.isOpen, hover] using h.ended

/-- A request that is still to be made was not made before. -/
theorem not_made (h : Accounts base asked tasks history) (ht : t ∈ tasks)
    (hdue : t.stage = .handedOver) : t.number ∉ (requestsIn history).map Prod.fst := by
  -- Made and due requests together have each number once.
  have hnodup : ((requestsIn history ++ (tasks.filter Task.isDue).map Task.named).map
      Prod.fst).Nodup := by
    rw [(h.made.map Prod.fst).nodup_iff, numbered_fst]
    exact List.nodup_range'
  rw [List.map_append, List.nodup_append] at hnodup
  intro hmade
  refine hnodup.2.2 _ hmade t.number ?_ rfl
  simp only [List.map_map, List.mem_map, List.mem_filter]
  exact ⟨t, ⟨ht, by simp [Task.isDue, hdue]⟩, rfl⟩

/-- A request that was asked for and is not waited for is over. -/
theorem mem_endedIn (h : Accounts base asked tasks history) (hbase : base ≤ number)
    (hlt : number < base + asked.length) (hnone : ∀ t ∈ tasks, t.number ≠ number) :
    number ∈ endedIn history := by
  have hmem := h.ended.mem_iff.mpr (List.mem_range'_1.mpr ⟨hbase, hlt⟩)
  rcases List.mem_append.mp hmem with hover | htask
  · exact hover
  · obtain ⟨t, ht, rfl⟩ := List.mem_map.mp htask
    exact absurd rfl (hnone t (List.mem_of_mem_filter ht))

/-- Only the requests of the round that is waited for can be under way. -/
theorem inFlight_le (h : Accounts base asked tasks history) :
    inFlightAfter history ≤ tasks.length := by
  have hmade := h.made.length_eq
  have hover := h.ended.length_eq
  have hopen := List.length_filter_le Task.isOpen tasks
  simp only [List.length_append, List.length_map, List.length_range', numbered,
    tasksFrom_length] at hmade hover
  simp only [inFlightAfter]
  omega

end Accounts

/-! ### Turns -/

/-- A request is made in the turn of its round. -/
structure InTurn (base : Nat) (rounds : List Round) (history : List Happening) (number : Nat)
    (request : Request) (earlier : List Round) (round : Round) : Prop where
  /-- The round comes after the earlier ones. -/
  place : ∃ later, rounds = earlier ++ round :: later
  /-- The request is one of the round. -/
  own : base + (requestsOf earlier).length ≤ number ∧
    round.requests[number - (base + (requestsOf earlier).length)]? = some request
  /-- The round is the last that was announced. -/
  announced : (milestonesIn history).getLast? = some round.announcement
  loud : round.announcement.announces = true
  /-- Every request of an earlier round is over. -/
  barrier : ∀ n, base ≤ n → n < base + (requestsOf earlier).length → n ∈ endedIn history
  /-- The request was not made before. -/
  once : number ∉ (requestsIn history).map Prod.fst

/-- Every request was made in turn. -/
def AllInTurn (base : Nat) (rounds : List Round) (history : List Happening) : Prop :=
  ∀ before number request, before ++ [.made number request] <+: history →
    ∃ earlier round, InTurn base rounds before number request earlier round

/-- Nothing was announced after the run was called off. -/
def IsHeeded (history : List Happening) : Prop :=
  ∀ before after, history = before ++ .calledOff :: after →
    ∀ milestone ∈ milestonesIn after, milestone.announces = false

/-- A request remains of the round that was announced last: it is one of the round, and was not made
yet. -/
def Remains (base : Nat) (rounds : List Round) (history : List Happening) (number : Nat)
    (request : Request) : Prop :=
  ∃ earlier round later, rounds = earlier ++ round :: later ∧
    (milestonesIn history).getLast? = some round.announcement ∧
    (base + (requestsOf earlier).length ≤ number ∧
      round.requests[number - (base + (requestsOf earlier).length)]? = some request) ∧
    number ∉ (requestsIn history).map Prod.fst

section History

variable {rounds : List Round} {history : List Happening} {x : Happening}

/-- Requests stay in turn if what happens next makes one whose turn it is. -/
theorem AllInTurn.append (h : AllInTurn base rounds history)
    (hx : ∀ number request, x = .made number request →
      ∃ earlier round, InTurn base rounds history number request earlier round) :
    AllInTurn base rounds (history ++ [x]) := by
  intro before number request hprefix
  -- Either the request is the last thing that happened, or it was made before.
  rcases List.prefix_concat_iff.mp hprefix with heq | hprefix
  · obtain ⟨rfl, hlast⟩ := List.append_inj' heq rfl
    exact hx number request (List.cons.inj hlast).1.symm
  · exact h before number request hprefix

/-- A call to stop stays heeded if nothing is announced after it. -/
theorem IsHeeded.append (h : IsHeeded history)
    (hx : ∀ milestone, x = .reached milestone → .calledOff ∈ history →
      milestone.announces = false) : IsHeeded (history ++ [x]) := by
  intro before after heq milestone hmilestone
  rcases List.eq_nil_or_concat after with rfl | ⟨after, y, rfl⟩
  · simp at hmilestone
  · rw [List.concat_eq_append, ← List.cons_append, ← List.append_assoc] at heq
    obtain ⟨rfl, hlast⟩ := List.append_inj' heq rfl
    obtain rfl := (List.cons.inj hlast).1
    simp only [List.concat_eq_append, milestonesIn_append, List.mem_append] at hmilestone
    rcases hmilestone with hearlier | hnew
    · exact h before after rfl milestone hearlier
    · refine hx milestone ?_ (by simp)
      cases x <;> simp_all

end History

/-! ### Scenes in order -/

/-- The announcements that were made, in their order. -/
def announcementsIn (history : List Happening) : List Milestone :=
  (milestonesIn history).filter Milestone.announces

/-- A round was announced after some earlier ones, and nothing was announced since. -/
structure Round.IsAnnounced (earlier : List Round) (round : Round) (later : List Round)
    (history : List Happening) (rest : List Outcome → Course α) : Prop where
  loud : round.announcement.announces = true
  quiet : ∀ outcomes, (rest outcomes).IsQuiet
  follows : ∀ outcomes, (rest outcomes).Follows later
  announced : announcementsIn history = (earlier ++ [round]).map Round.announcement
  last : (milestonesIn history).getLast? = some round.announcement

/-- Where a run is among its rounds: between them, at one that was announced, or within one. -/
inductive Scene.Place (base : Nat) : List Round → List Round → Scene α → Prop where
  | between {earlier later course history now asked isCancelled}
      (follows : course.Follows later) (quiet : isCancelled = true → course.IsQuiet)
      (announced : announcementsIn history = earlier.map Round.announcement)
      (count : asked = base + (requestsOf earlier).length)
      (books : Accounts base (requestsOf earlier) [] history) :
    Place base earlier later ⟨.going course, history, now, asked, isCancelled⟩
  | announced {earlier round later rest history now asked isCancelled}
      (announced : Round.IsAnnounced earlier round later history rest)
      (count : asked = base + (requestsOf earlier).length)
      (books : Accounts base (requestsOf earlier) [] history) :
    Place base earlier (round :: later)
      ⟨.going (.asks round.requests rest), history, now, asked, isCancelled⟩
  | during {earlier round later collected tasks rest history now asked isCancelled}
      (announced : Round.IsAnnounced earlier round later history rest)
      (count : asked = base + (requestsOf (earlier ++ [round])).length)
      (own : ∀ t ∈ tasks, base + (requestsOf earlier).length ≤ t.number ∧
        round.requests[t.number - (base + (requestsOf earlier).length)]? = some t.request)
      (size : tasks.length ≤ round.requests.length)
      (books : Accounts base (requestsOf (earlier ++ [round])) tasks history) :
    Place base earlier (round :: later)
      ⟨.waiting collected tasks rest, history, now, asked, isCancelled⟩

/-- A run keeps to its rounds, and did so at every moment before. -/
structure Scene.InOrder (base : Nat) (rounds : List Round) (s : Scene α) : Prop where
  place : ∃ earlier later, rounds = earlier ++ later ∧ s.Place base earlier later
  turns : AllInTurn base rounds s.history
  heeded : IsHeeded s.history
  flag : s.isCancelled = true ↔ .calledOff ∈ s.history

@[simp] theorem requestsOf_concat (earlier : List Round) (round : Round) :
    requestsOf (earlier ++ [round]) = requestsOf earlier ++ round.requests := by
  simp [requestsOf]

/-- Only milestones matter for what was announced. -/
theorem Round.IsAnnounced.congr {earlier later : List Round} {round : Round}
    {history history' : List Happening} {rest : List Outcome → Course α}
    (h : round.IsAnnounced earlier later history rest)
    (hmilestones : milestonesIn history' = milestonesIn history) :
    round.IsAnnounced earlier later history' rest where
  loud := h.loud
  quiet := h.quiet
  follows := h.follows
  announced := by simpa only [announcementsIn, hmilestones] using h.announced
  last := by simpa only [hmilestones] using h.last

namespace Scene

variable {rounds : List Round} {s s' : Scene α}

/-- Once it is called off, a run announces nothing. -/
theorem Place.plain {earlier later : List Round} {milestone : Milestone} {rest : Course α}
    (h : s.Place base earlier later) (hdoing : s.activity = .going (.reports milestone rest))
    (hcalled : s.isCancelled = true) : milestone.announces = false := by
  cases h with
  | between follows quiet =>
    cases hdoing
    exact (quiet hcalled).1
  | announced => cases hdoing
  | during => cases hdoing

/-- A milestone leaves a run between its rounds or announces the next, and the run is ready to be
called off. -/
theorem Place.reports {earlier later : List Round} {milestone : Milestone} {rest : Course α}
    {history history' : List Happening} {now asked : Nat} {isCancelled : Bool}
    (h : Place base earlier later ⟨.going (.reports milestone rest), history, now, asked,
      isCancelled⟩)
    (hmilestones : milestonesIn history' = milestonesIn history ++ [milestone])
    (hrequests : requestsIn history' = requestsIn history)
    (hovers : endedIn history' = endedIn history) (isCancelled' : Bool) :
    Place base earlier later ⟨.going rest, history', now, asked, isCancelled'⟩ := by
  cases h with
  | between follows quiet announced count books =>
    have hbooks := books.congr hrequests hovers
    cases follows with
    | reports plain quiet' follows' =>
      refine .between follows' (fun _ => quiet') ?_ count hbooks
      simpa [announcementsIn, hmilestones, plain] using announced
    | @announces round _ _ loud quiet' follows' =>
      refine .announced ⟨loud, quiet', follows', ?_, ?_⟩ count hbooks
      · simpa [announcementsIn, hmilestones, loud] using announced
      · simp [hmilestones]

/-- What stays in order when nothing is made and nothing is announced. -/
theorem InOrder.of_append (h : s.InOrder base rounds) {x : Happening}
    (hhistory : s'.history = s.history ++ [x]) (hmilestone : x.milestone? = none)
    (hrequest : x.request? = none)
    (hplace : ∃ earlier later, rounds = earlier ++ later ∧ s'.Place base earlier later)
    (hflag : s'.isCancelled = true ↔ .calledOff ∈ s'.history) : s'.InOrder base rounds where
  place := hplace
  turns := by
    rw [hhistory]
    exact h.turns.append fun number request hx => by simp [hx] at hrequest
  heeded := by
    rw [hhistory]
    exact h.heeded.append fun milestone hx => by simp [hx] at hmilestone
  flag := hflag

/-- A step keeps a run in order. -/
theorem Step.inOrder (h : Step k s s') (hs : s.InOrder base rounds) : s'.InOrder base rounds := by
  obtain ⟨activity, history, now, asked, isCancelled⟩ := s
  have hs' := hs
  obtain ⟨⟨earlier, later, rfl, hplace⟩, hturns, hheeded, hflag⟩ := hs
  cases h with
  | @reports milestone _ doing =>
    obtain rfl := doing
    refine ⟨⟨earlier, later, rfl, hplace.reports (by simp) (by simp) (by simp) isCancelled⟩,
      hturns.append (by simp), hheeded.append fun milestone hx hcalled => ?_, by simpa using hflag⟩
    obtain rfl := Happening.reached.inj hx
    exact hplace.plain rfl (hflag.mpr hcalled)
  | @reportsCallingOff milestone _ doing running =>
    obtain rfl := doing
    refine ⟨⟨earlier, later, rfl, hplace.reports (by simp) (by simp) (by simp) true⟩, ?_, ?_,
      by simp⟩
    · simpa using (hturns.append (x := .reached milestone) (by simp)).append (x := .calledOff)
        (by simp)
    · have hreached := hheeded.append (x := .reached milestone) fun milestone hx hcalled => by
        obtain rfl := Happening.reached.inj hx
        exact hplace.plain rfl (hflag.mpr hcalled)
      simpa using hreached.append (x := .calledOff) (by simp)
  | looks doing =>
    obtain rfl := doing
    cases hplace with
    | between follows quiet announced count books =>
      -- A run that was called off sees it here, and is quiet behind.
      cases follows with
      | looks follows =>
        refine ⟨⟨earlier, later, rfl,
          .between (follows _) (fun hcalled => ?_) announced count books⟩, hturns, hheeded, hflag⟩
        obtain rfl : isCancelled = true := hcalled
        exact quiet rfl
  | asks doing =>
    obtain rfl := doing
    cases hplace with
    | between follows => cases follows
    | announced announced count books =>
      -- The tasks of the round are numbered from where the earlier rounds end.
      refine ⟨⟨earlier, _, rfl, .during announced ?_ (fun t ht => ?_) (by simp) ?_⟩,
        hturns, hheeded, hflag⟩
      · simp [count, Nat.add_assoc]
      · exact (mem_tasksFrom (count ▸ ht)).2
      · simpa [count] using books.ask _
  | @makes collected before t after rest doing due =>
    obtain rfl := doing
    cases hplace with
    | during announced count own size books =>
      have hmem : t ∈ before ++ t :: after := by simp
      -- The only step at which a request is made: here it has to be shown that it is in turn.
      refine ⟨⟨earlier, _, rfl, .during (announced.congr (by simp)) count ?_ ?_
        (books.make due now)⟩, hturns.append fun number request hx => ?_, hheeded.append ?_, ?_⟩
      · simp only [List.forall_mem_append, List.forall_mem_cons] at own ⊢
        exact own
      · simpa using size
      · obtain ⟨rfl, rfl⟩ := Happening.made.inj hx
        refine ⟨earlier, _, ⟨_, rfl⟩, own t hmem, announced.last, announced.loud, ?_,
          books.not_made hmem due⟩
        -- All tasks that are waited for have numbers of this round, so the books close the others.
        intro n hbase hlt
        refine books.mem_endedIn hbase ?_ fun t' ht' => ?_
        · simp only [requestsOf_concat, List.length_append]
          omega
        · have hown := (own t' ht').1
          omega
      · simp
      · simpa using hflag
  | @ends collected before t after rest start outcome doing made shown =>
    obtain rfl := doing
    cases hplace with
    | during announced count own size books =>
      refine hs'.of_append rfl rfl rfl ⟨earlier, _, rfl, .during (announced.congr (by simp)) count
        ?_ ?_ (books.finish made outcome)⟩ ?_
      · simp only [List.forall_mem_append, List.forall_mem_cons] at own ⊢
        exact own
      · simpa using size
      · simpa using hflag
  | collects doing settled =>
    obtain rfl := doing
    cases hplace with
    | during announced count own size books =>
      refine ⟨⟨earlier, _, rfl, .during announced count (fun t ht => ?_) ?_
        (books.collect settled)⟩, hturns, hheeded, hflag⟩
      · exact own t (List.mem_cons_of_mem _ ht)
      · exact Nat.le_of_succ_le size
  | goesOn doing =>
    obtain rfl := doing
    cases hplace with
    | @during round later _ _ _ _ _ _ _ announced count own size books =>
      -- The round moves from the later ones to the earlier ones.
      exact ⟨⟨earlier ++ [round], later, by simp, .between (announced.follows _)
        (fun _ => announced.quiet _) announced.announced count books⟩, hturns, hheeded, hflag⟩
  | callsOff doing running =>
    obtain rfl := doing
    cases hplace with
    | during announced count own size books =>
      exact hs'.of_append rfl rfl rfl ⟨earlier, _, rfl, .during (announced.congr (by simp))
        count own size (books.congr (by simp) (by simp))⟩ (by simp)
  | waits doing made idle =>
    obtain rfl := doing
    cases hplace with
    | during announced count own size books =>
      exact ⟨⟨earlier, _, rfl, .during announced count own size books⟩, hturns, hheeded, hflag⟩

/-- A run stays in order. -/
theorem Reaches.inOrder (h : Reaches k s s') (hs : s.InOrder base rounds) :
    s'.InOrder base rounds := by
  induction h with
  | refl => exact hs
  | tail _ hstep ih => exact hstep.inOrder ih

/-- A run that begins is in order. -/
theorem InOrder.start {c : Course α} (past : Journal) (hfollows : c.Follows rounds)
    (hquiet : past.isCancelled = true → c.IsQuiet) :
    (Scene.start past c).InOrder past.exchanges.length rounds := by
  have hrequests := Scene.start_requests past c
  have hmilestones := Scene.start_milestones past c
  refine ⟨⟨[], rounds, rfl, .between hfollows hquiet ?_ rfl ⟨?_, ?_⟩⟩, ?_, ?_, ?_⟩
  · exact congrArg (List.filter Milestone.announces) hmilestones
  · exact .of_eq ((List.append_nil _).trans hrequests)
  · exact .of_eq ((List.append_nil _).trans (Scene.start_ended past c))
  · rintro before number request ⟨after, heq⟩
    rw [← heq] at hrequests
    simp at hrequests
  · intro before after heq milestone hmilestone
    rw [heq] at hmilestones
    simp only [milestonesIn_append, milestonesIn_cons, List.append_eq_nil_iff] at hmilestones
    -- Nothing was reached yet, before or after.
    rw [hmilestones.2.2] at hmilestone
    cases hmilestone
  · cases h : past.isCancelled <;> simp [Scene.start, h]

/-! ### What follows -/

/-- No more requests are being answered at once than the largest round has. -/
theorem InOrder.inFlight_le (h : s.InOrder base rounds) {bound : Nat}
    (hbound : ∀ round ∈ rounds, round.requests.length ≤ bound) :
    inFlightAfter s.history ≤ bound := by
  obtain ⟨earlier, later, rfl, hplace⟩ := h.place
  cases hplace with
  | between _ _ _ _ books => exact Nat.le_trans books.inFlight_le (Nat.zero_le bound)
  | announced _ _ books => exact Nat.le_trans books.inFlight_le (Nat.zero_le bound)
  | @during round later _ _ _ _ _ _ _ _ _ _ size books =>
    exact Nat.le_trans books.inFlight_le (Nat.le_trans size (hbound round (by simp)))

/-- After the run was called off, only what remains of the announced round is asked for. -/
theorem InOrder.after_calledOff (h : s.InOrder base rounds) {before between : List Happening}
    {number : Nat} {request : Request}
    (hmade : before ++ .calledOff :: between ++ [.made number request] <+: s.history) :
    Remains base rounds before number request := by
  obtain ⟨earlier, round, hturn⟩ := h.turns _ number request hmade
  obtain ⟨later, hplace⟩ := hturn.place
  refine ⟨earlier, round, later, hplace, ?_, hturn.own, fun hbefore => hturn.once ?_⟩
  · obtain ⟨after, heq⟩ := hmade
    -- Nothing that announces was reached since, so the announcement was before.
    have hplain := h.heeded before (between ++ .made number request :: after) (by simp [← heq])
    have hlast := hturn.announced
    simp only [milestonesIn_append, milestonesIn_cons, Happening.milestone?, Option.toList_none,
      List.nil_append, List.getLast?_append] at hlast
    cases hbetween : (milestonesIn between).getLast? with
    | none => simpa [hbetween] using hlast
    | some milestone =>
      have hmem : milestone ∈ milestonesIn (between ++ .made number request :: after) := by
        simp [List.mem_of_getLast? hbetween]
      have hround : milestone = round.announcement := by simpa [hbetween] using hlast
      have hquiet := hplain milestone hmem
      rw [hround, hturn.loud] at hquiet
      cases hquiet
  · simp only [requestsIn_append, List.map_append, List.mem_append]
    exact .inl hbefore

/-- A run that has come to a result asked for its first rounds, each of which it announced. -/
theorem InOrder.of_finished (h : s.InOrder base rounds) {result : α}
    (hfinished : s.activity = .going (.finished result)) :
    ∃ earlier later, rounds = earlier ++ later ∧
      announcementsIn s.history = earlier.map Round.announcement ∧
      (requestsIn s.history).Perm (numbered base (requestsOf earlier)) ∧
      (endedIn s.history).Perm (List.range' base (requestsOf earlier).length) := by
  obtain ⟨earlier, later, rfl, hplace⟩ := h.place
  cases hplace with
  | between _ _ announced _ books =>
    exact ⟨earlier, later, rfl, announced, by simpa using books.made, by simpa using books.ended⟩
  | announced => cases hfinished
  | during => cases hfinished

end Scene

end GuidedTour
