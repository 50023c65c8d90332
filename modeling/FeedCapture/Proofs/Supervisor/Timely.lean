import FeedCapture.Proofs.Supervisor.Registered
import FeedCapture.Proofs.Supervisor.Stop
import FeedCapture.Proofs.Worker.Waiting
import FeedCapture.Supervisor.Timely

/-!
# Calls of stop in runs in which the clock waits

From the first call of stop on, a worker that has not ended can go on, so the clock waits until all
workers have ended and all calls that have run are over.  So a call of stop returns at the instant
at which it runs first.

## Main definitions

* `Supervision.Regular` — what holds in every state that a supervisor can reach
* `Supervision.Noted` — what has been seen of the calls of stop
* `Supervision.Later` — what calls of stop change that have run before

The main statements are `Supervision.Noted.returned_iff` and `Supervision.exists_timely?_polls`.
-/

namespace FeedCapture

/-- The same fleet, where the bus has its own sender or not. -/
def Fleet.withSender (f : Fleet) (own : Bool) : Fleet :=
  { f with hub := { f.hub with bus := { f.hub.bus with ownSender := own } } }

namespace Supervision

open Entries Supervisor

variable {spared : Option Nat} {s t u : Supervision} {acts : List Act} {a : Act}
  {seen later : List (Instant × Mark)}

/-! ## What always holds -/

/-- What holds in every state that a supervisor can reach. -/
structure Regular (s : Supervision) : Prop where
  tended : s.Tended
  told : s.Told

theorem regular_create {sources : List String} {policy : Policy} {network : Network}
    {counting : Bool} {supervisor : Supervisor}
    (created : create sources policy network counting = .ok supervisor) :
    Regular { supervisor } := by
  have still : run? { supervisor } [] = some { supervisor } := rfl
  exact ⟨tended_of_run? created still, (told_of_run? created still).1⟩

/-- Whoever the clock does not wait for, all that always holds is kept. -/
theorem Regular.act (regular : s.Regular) (acted : s.timelyAct? spared a = some t) :
    t.Regular := by
  cases timely_of_timelyAct? acted with
  | @pass time can =>
    simp only [canPass, Bool.and_eq_true, decide_eq_true_eq] at can
    -- to the fleet it makes no difference what the clock waits for
    have moved : s.supervisor.fleet.act? (.lag time) = some (s.supervisor.fleet.moveTo time) :=
      if_pos can.1.1
    exact ⟨regular.tended.framed (regular.tended.wired.act moved) ⟨rfl, rfl, rfl⟩,
      regular.told.fleet regular.tended rfl moved⟩
  | act other acted => exact ⟨regular.tended.act acted, regular.told.act regular.tended acted⟩

theorem Regular.run (regular : s.Regular) (ran : s.timely? spared acts = some (t, seen)) :
    t.Regular := by
  induction acts generalizing s seen with
  | nil =>
    cases ran
    exact regular
  | cons a acts ih =>
    obtain ⟨s', later, acted, ran, -⟩ := exists_of_timely?_cons ran
    exact ih (regular.act acted) ran

/-- A run in which the clock waits for everybody is a run. -/
theorem run?_of_timely? (ran : s.timely? none acts = some (t, seen)) : s.run? acts = some t := by
  induction acts generalizing s seen with
  | nil =>
    cases ran
    rfl
  | cons a acts ih =>
    obtain ⟨s', later, acted, ran, -⟩ := exists_of_timely?_cons ran
    refine Option.bind_eq_some_iff.2 ⟨s', ?_, ih ran⟩
    cases timely_of_timelyAct? acted with
    | @pass time can =>
      have passed : s.supervisor.fleet.canPass time = true := by
        simp only [canPass, rests, Bool.and_eq_true, List.all_eq_true, reduceCtorEq, decide_false,
          Bool.false_or, Option.isNone_iff_eq_none, decide_eq_true_eq] at can
        obtain ⟨⟨later, waits, -⟩, wakes⟩ := can
        have still : s.supervisor.fleet.canStep = false := by
          rw [Fleet.canStep, List.any_eq_false]
          intro w hw
          simp [waits w hw]
        simp only [Fleet.canPass, later, still, decide_true, Bool.not_false, Bool.and_true,
          Bool.true_and]
        split
        · next wake first =>
          refine decide_eq_true (Fleet.le_wakeAt (fun w hw wake own => ?_) first)
          simpa [own] using wakes w hw
        · rfl
      have moved : s.supervisor.fleet.act? (.pass time) = some (s.supervisor.fleet.moveTo time) :=
        if_pos passed
      exact Option.map_eq_some_iff.2 ⟨_, moved, rfl⟩
    | act other acted => exact acted

/-! ## Everybody waits -/

theorem rests_iff : s.rests spared = true ↔
    (∀ w ∈ s.supervisor.fleet.workers, spared ≠ some w.key.slot →
      w.step? s.supervisor.fleet.hub = none) ∧
    ∀ call ∈ s.calls, s.presses call = false := by
  simp only [rests, Bool.and_eq_true, List.all_eq_true, Bool.or_eq_true, decide_eq_true_eq,
    Option.isNone_iff_eq_none, Bool.not_eq_true', ne_eq, ← or_iff_not_imp_left]

/-- Whoever has not ended can go on once the workers were told to stop. -/
theorem Regular.ended_of_waits (regular : s.Regular) (stopped : s.supervisor.stopped = true)
    {slot : Nat} {w : Worker} (hw : s.supervisor.fleet.workers[slot]? = some w)
    (waits : w.step? s.supervisor.fleet.hub = none) : w.ended = true := by
  by_contra going
  have can := Worker.isSome_step? (regular.tended.wired.each slot w hw)
    (regular.told.signalled stopped) (by simpa using going)
  rw [waits] at can
  cases can

/-- When everybody waits, the calls of stop that have run are over. -/
theorem Regular.over_of_rests (regular : s.Regular) (rests : s.rests spared = true) {c : StopCall}
    (hc : c ∈ s.calls) : c = .fresh ∨ c = .finished := by
  cases stopped : s.supervisor.stopped with
  | false => exact regular.tended.waiting stopped c hc
  | true =>
    have still := (rests_iff.1 rests).2 c hc
    cases c with
    | fresh => exact .inl rfl
    | finished => exact .inr rfl
    | joining first joined slot =>
      simp only [presses] at still
      split at still
      · next w hw =>
        simp only [Bool.or_eq_false_iff, Option.isSome_eq_false_iff,
          Option.isNone_iff_eq_none] at still
        have ended := regular.ended_of_waits stopped hw still.2
        rw [still.1] at ended
        cases ended
      · cases still

/-! ## Calls that have run before -/

/-- What a call of stop changes that has run before: the calls that have run, what the supervisor
reports and whom it has not joined, and whether the bus has its own sender. -/
structure Later (s t : Supervision) : Prop where
  fleet : ∃ own, t.supervisor.fleet = s.supervisor.fleet.withSender own
  sources : t.supervisor.sources = s.supervisor.sources
  started : t.supervisor.started = s.supervisor.started
  stopped : t.supervisor.stopped = s.supervisor.stopped
  calls : t.calls.map StopCall.isFresh = s.calls.map StopCall.isFresh

theorem Later.refl (s : Supervision) : Later s s :=
  ⟨⟨s.supervisor.fleet.hub.bus.ownSender, rfl⟩, rfl, rfl, rfl, rfl⟩

theorem Later.trans (first : Later s t) (rest : Later t u) : Later s u := by
  obtain ⟨own, first_fleet⟩ := first.fleet
  obtain ⟨own', rest_fleet⟩ := rest.fleet
  refine ⟨⟨own', ?_⟩, rest.sources.trans first.sources, rest.started.trans first.started,
    rest.stopped.trans first.stopped, rest.calls.trans first.calls⟩
  rw [rest_fleet, first_fleet]
  rfl

/-- A supervisor differs from another only in what joining changes. -/
theorem later_joinWorkers (first : Bool) (count : Nat) (slots : List Nat) (s : Supervisor)
    {calls calls' : List StopCall}
    (same : calls'.map StopCall.isFresh = calls.map StopCall.isFresh) :
    Later { supervisor := s, calls }
      { supervisor := (joinWorkers first count slots s).1, calls := calls' } := by
  refine ⟨?_, by simp, by simp, by simp, same⟩
  rcases fleet_joinWorkers first count slots s with fleet | fleet
  · exact ⟨s.fleet.hub.bus.ownSender, fleet⟩
  · exact ⟨false, fleet⟩

/-- What joining comes to where all workers have ended. -/
theorem joinWorkers_of_ended (first : Bool) (count : Nat) (slots : List Nat) (s : Supervisor)
    (ended : ∀ slot, s.hasEnded slot = true) : (joinWorkers first count slots s).2 = .finished := by
  induction slots generalizing s count with
  | nil => rfl
  | cons slot rest ih =>
    simp only [joinWorkers, ended, if_true]
    refine ih (count + 1) (s.noteJoin slot) fun other => ?_
    rw [hasEnded_congr (s := s) (by rw [fleet_noteJoin]), ended]

theorem isFresh_joinWorkers (first : Bool) (count : Nat) (slots : List Nat) (s : Supervisor) :
    (joinWorkers first count slots s).2.isFresh = false := by
  induction slots generalizing s count with
  | nil => rfl
  | cons slot rest ih =>
    simp only [joinWorkers]
    split
    · exact ih _ _
    · rfl

/-- A call of stop takes no time, and leaves the policy alone. -/
theorem frame_pollStop (s : Supervisor) (call : StopCall) :
    (s.pollStop call).1.fleet.hub.now = s.fleet.hub.now ∧
      (s.pollStop call).1.fleet.hub.policy = s.fleet.hub.policy := by
  have joins : ∀ (first : Bool) (count : Nat) (slots : List Nat) (s : Supervisor),
      (joinWorkers first count slots s).1.fleet.hub.now = s.fleet.hub.now ∧
        (joinWorkers first count slots s).1.fleet.hub.policy = s.fleet.hub.policy := by
    intro first count slots s
    rcases fleet_joinWorkers first count slots s with fleet | fleet
    · rw [fleet]
      exact ⟨rfl, rfl⟩
    · rw [fleet]
      exact ⟨rfl, rfl⟩
  cases call with
  | fresh =>
    simp only [pollStop]
    cases s.stopped with
    | true => exact joins false 0 _ s
    | false => exact joins true 0 _ s.signal
  | joining first count slot =>
    simp only [pollStop]
    split
    · have noted := joins first (count + 1) (s.noteJoin slot).unjoined.reverse (s.noteJoin slot)
      rwa [fleet_noteJoin] at noted
    · exact ⟨rfl, rfl⟩
  | finished => exact ⟨rfl, rfl⟩

/-- A call of stop that runs has run afterwards. -/
theorem isFresh_pollStop (s : Supervisor) (call : StopCall) :
    (s.pollStop call).2.isFresh = false := by
  cases call with
  | fresh => exact isFresh_joinWorkers ..
  | joining first count slot =>
    simp only [pollStop]
    split
    · exact isFresh_joinWorkers ..
    · rfl
  | finished => rfl

theorem hub_start (s : Supervisor) : s.start.fleet.hub = s.fleet.hub := by
  unfold Supervisor.start
  split
  · rfl
  · split
    · rfl
    · dsimp only
      split <;> rfl

/-- Only the clock takes time, and nothing changes the policy. -/
theorem frame_act? (other : a.isPass = false) (acted : s.act? a = some t) :
    t.supervisor.fleet.hub.now = s.supervisor.fleet.hub.now ∧
      t.supervisor.fleet.hub.policy = s.supervisor.fleet.hub.policy := by
  cases a with
  | start =>
    cases acted
    show s.supervisor.start.fleet.hub.now = _ ∧ s.supervisor.start.fleet.hub.policy = _
    rw [hub_start]
    exact ⟨rfl, rfl⟩
  | call =>
    cases acted
    exact ⟨rfl, rfl⟩
  | poll n =>
    obtain ⟨call, -, rfl⟩ := Option.map_eq_some_iff.1 acted
    exact frame_pollStop s.supervisor call
  | giveUp n =>
    obtain ⟨call, -, rfl⟩ := Option.map_eq_some_iff.1 acted
    cases call <;> exact ⟨rfl, rfl⟩
  | step slot =>
    obtain ⟨fleet, hf, rfl⟩ := Option.map_eq_some_iff.1 acted
    obtain ⟨w, step, -, stepped, rfl⟩ := Fleet.exists_of_stepWorker? hf
    have kept := Worker.kept_of_transition (Worker.transition_of_step? stepped)
    exact ⟨kept.now, kept.policy⟩
  | receive =>
    obtain ⟨fleet, hf, rfl⟩ := Option.map_eq_some_iff.1 acted
    obtain ⟨got, received, rfl⟩ := Option.map_eq_some_iff.1 hf
    obtain ⟨taken, -, rfl⟩ := Option.map_eq_some_iff.1 received
    exact ⟨rfl, rfl⟩
  | pass time => cases other

/-- A call that has run still has run when it goes on or ends. -/
theorem map_isFresh_set {calls : List StopCall} {n : Nat} {call call' : StopCall}
    (hc : calls[n]? = some call) (same : call'.isFresh = call.isFresh) :
    (calls.set n call').map StopCall.isFresh = calls.map StopCall.isFresh := by
  rw [List.map_set, same]
  refine List.ext_getElem? fun i => ?_
  rw [List.getElem?_set]
  split
  · next here =>
    subst here
    have bound := (List.getElem?_eq_some_iff.1 hc).1
    rw [List.length_map, if_pos bound, List.getElem?_map, hc]
    rfl
  · rfl

/-- A call of stop that has run before. -/
theorem later_of_poll {n : Nat} {call : StopCall} (hc : s.calls[n]? = some call)
    (begun : call.isFresh = false) (polled : s.act? (.poll n) = some t) : Later s t := by
  simp only [act?, hc, Option.map_some, Option.some.injEq] at polled
  subst polled
  cases call with
  | fresh => cases begun
  | joining first count slot =>
    simp only [pollStop]
    split
    · have noted : Later s { s with supervisor := s.supervisor.noteJoin slot } :=
        ⟨⟨_, by rw [fleet_noteJoin]; rfl⟩, sources_noteJoin .., started_noteJoin ..,
          stopped_noteJoin .., rfl⟩
      exact noted.trans (later_joinWorkers first (count + 1) _ _
        (map_isFresh_set hc (isFresh_joinWorkers ..)))
    · exact ⟨⟨_, rfl⟩, rfl, rfl, rfl, map_isFresh_set hc rfl⟩
  | finished => exact ⟨⟨_, rfl⟩, rfl, rfl, rfl, map_isFresh_set hc rfl⟩

/-- What is seen when a call of stop runs: that it begins, and that it returns. -/
theorem mem_sights_poll {n : Nat} {call : StopCall} (hc : s.calls[n]? = some call) {at_ : Instant}
    {m : Mark} : (at_, m) ∈ s.sights (.poll n) ↔ at_ = s.supervisor.fleet.hub.now ∧
      (m = .began n ∧ call.isFresh = true ∨
        m = .returned n ∧ call ≠ .finished ∧ (s.supervisor.pollStop call).2 = .finished) := by
  have fresh : s.calls[n]? = some .fresh ↔ call.isFresh = true := by
    rw [hc, Option.some.injEq, StopCall.isFresh_iff]
  have isOver : s.completes n = true ↔
      call ≠ .finished ∧ (s.supervisor.pollStop call).2 = .finished := by
    simp [completes, hc]
  have timed : (at_, m) ∈ s.sights (.poll n) ↔
      at_ = s.supervisor.fleet.hub.now ∧ m ∈ s.marks (.poll n) := by
    simp [sights, and_comm, eq_comm]
  rw [timed]
  refine and_congr_right fun _ => ?_
  simp only [marks, fresh, isOver, List.mem_append]
  split
  · split <;> simp [*]
  · split <;> simp [*]

/-- What is seen of calls of stop that have run before: some of them are over. -/
def OnlyReturns (seen : List (Instant × Mark)) : Prop := ∀ e ∈ seen, ∃ n, e.2 = .returned n

theorem onlyReturns_poll {n : Nat} {call : StopCall} (hc : s.calls[n]? = some call)
    (begun : call.isFresh = false) : OnlyReturns (s.sights (.poll n)) := by
  rintro ⟨at_, m⟩ he
  rcases ((mem_sights_poll hc).1 he).2 with ⟨-, fresh⟩ | ⟨rfl, -⟩
  · rw [begun] at fresh
    cases fresh
  · exact ⟨n, rfl⟩

/-- Where all workers have ended, a call of stop that has run before goes on to its end. -/
theorem exists_timely?_poll (spared : Option Nat)
    (ended : ∀ slot, s.supervisor.hasEnded slot = true) (n : Nat) :
    ∃ acts t seen, s.timely? spared acts = some (t, seen) ∧ Later s t ∧ OnlyReturns seen ∧
      (∀ c, t.calls[n]? = some c → c = .fresh ∨ c = .finished) ∧
      ∀ i, i ≠ n → t.calls[i]? = s.calls[i]? := by
  have idle : (∀ c, s.calls[n]? = some c → c = .fresh ∨ c = .finished) → ∃ acts t seen,
      s.timely? spared acts = some (t, seen) ∧ Later s t ∧ OnlyReturns seen ∧
      (∀ c, t.calls[n]? = some c → c = .fresh ∨ c = .finished) ∧
      ∀ i, i ≠ n → t.calls[i]? = s.calls[i]? := fun isOver =>
    ⟨[], s, [], rfl, .refl s, fun e he => absurd he List.not_mem_nil, isOver, fun _ _ => rfl⟩
  cases hc : s.calls[n]? with
  | none => exact idle fun c none => by rw [hc] at none; cases none
  | some call =>
    cases call with
    | fresh => exact idle fun c same => by rw [hc] at same; cases same; exact .inl rfl
    | finished => exact idle fun c same => by rw [hc] at same; cases same; exact .inr rfl
    | joining first count slot =>
      have acted : s.timelyAct? spared (.poll n) = some
          { supervisor := (s.supervisor.pollStop (.joining first count slot)).1
            calls := s.calls.set n (s.supervisor.pollStop (.joining first count slot)).2 } := by
        simp [timelyAct?, act?, hc]
      refine ⟨[.poll n], _, _, timely?_singleton acted, later_of_poll hc rfl acted,
        onlyReturns_poll hc rfl, fun c same => ?_, fun i other => ?_⟩
      · simp only [List.getElem?_set_self (List.getElem?_eq_some_iff.1 hc).1,
          Option.some.injEq] at same
        rw [← same]
        simp only [pollStop, ended, if_true]
        refine .inr (joinWorkers_of_ended _ _ _ _ fun other => ?_)
        rw [hasEnded_congr (s := s.supervisor) (by rw [fleet_noteJoin]), ended]
      · exact List.getElem?_set_ne (Ne.symm other)

/-- Where all workers have ended, all calls of stop that have run before go on to their ends. -/
theorem exists_timely?_polls (spared : Option Nat)
    (ended : ∀ slot, s.supervisor.hasEnded slot = true) :
    ∃ acts t seen, s.timely? spared acts = some (t, seen) ∧ Later s t ∧ OnlyReturns seen ∧
      ∀ c ∈ t.calls, c = .fresh ∨ c = .finished := by
  -- the calls are polled in the order of their making
  have some_first : ∀ k, ∃ acts t seen, s.timely? spared acts = some (t, seen) ∧ Later s t ∧
      OnlyReturns seen ∧
      ∀ (i : Nat) (c : StopCall), i < k → t.calls[i]? = some c → c = .fresh ∨ c = .finished := by
    intro k
    induction k with
    | zero =>
      exact ⟨[], s, [], rfl, .refl s, fun e he => absurd he List.not_mem_nil,
        fun i c hi => by cases hi⟩
    | succ k ih =>
      obtain ⟨acts, t, seen, ran, later, returns, isOver⟩ := ih
      have ended : ∀ slot, t.supervisor.hasEnded slot = true := fun slot => by
        obtain ⟨own, fleet⟩ := later.fleet
        rw [hasEnded_congr (s := s.supervisor) (by rw [fleet]; rfl), ended]
      obtain ⟨more, u, seen', ran', later', returns', last, others⟩ :=
        exists_timely?_poll spared ended k
      refine ⟨_, u, _, timely?_append ran ran', later.trans later', fun e he => ?_,
        fun i c hi hc => ?_⟩
      · rcases List.mem_append.1 he with he | he
        · exact returns e he
        · exact returns' e he
      · by_cases same : i = k
        · subst same
          exact last c hc
        · rw [others i same] at hc
          exact isOver i c (Nat.lt_of_le_of_ne (Nat.le_of_lt_succ hi) same) hc
  obtain ⟨acts, t, seen, ran, later, returns, isOver⟩ := some_first s.calls.length
  refine ⟨acts, t, seen, ran, later, returns, fun c hc => ?_⟩
  obtain ⟨i, hi⟩ := List.getElem?_of_mem hc
  have length : t.calls.length = s.calls.length := by
    simpa using congrArg List.length later.calls
  exact isOver i c (length ▸ (List.getElem?_eq_some_iff.1 hi).1) hi

/-! ## When calls of stop return -/

/-- What has been seen of the calls of stop: a call that waits for a worker ran first at this very
instant, and one that is over returned at the instant at which it ran first, unless it was given
up. -/
structure Noted (s : Supervision) (seen : List (Instant × Mark)) : Prop where
  begun : ∀ n at_, (at_, .began n) ∈ seen → ∃ c, s.calls[n]? = some c ∧ c.isFresh = false
  once : ∀ n at_ at', (at_, .began n) ∈ seen → (at', .began n) ∈ seen → at_ = at'
  joining : ∀ n first joined slot, s.calls[n]? = some (.joining first joined slot) →
    (s.supervisor.fleet.hub.now, .began n) ∈ seen
  finished : ∀ n, s.calls[n]? = some .finished → (∀ at_, (at_, .did (.giveUp n)) ∉ seen) →
    ∃ at_, (at_, .returned n) ∈ seen
  returned : ∀ n at_, (at_, .returned n) ∈ seen → (at_, .began n) ∈ seen

theorem noted_new (supervisor : Supervisor) : Noted { supervisor } [] := by
  constructor <;> simp

namespace Noted

/-- What an act does that runs no call of stop. -/
theorem quiet (noted : Noted s seen) (supervisor : Supervisor)
    (now : supervisor.fleet.hub.now = s.supervisor.fleet.hub.now) {new : List (Instant × Mark)}
    (other : ∀ e ∈ new, ∀ n, e.2 ≠ .began n ∧ e.2 ≠ .returned n) :
    Noted { supervisor, calls := s.calls } (seen ++ new) := by
  have began : ∀ {at_ n}, (at_, .began n) ∈ seen ++ new → (at_, .began n) ∈ seen := fun h =>
    (List.mem_append.1 h).resolve_right fun h => (other _ h _).1 rfl
  have returned : ∀ {at_ n}, (at_, .returned n) ∈ seen ++ new → (at_, .returned n) ∈ seen :=
    fun h => (List.mem_append.1 h).resolve_right fun h => (other _ h _).2 rfl
  refine ⟨fun n at_ h => noted.begun n at_ (began h),
    fun n at_ at' h h' => noted.once n at_ at' (began h) (began h'),
    fun n first joined slot hc => ?_, fun n hc kept => ?_, fun n at_ h => ?_⟩
  · rw [now]
    exact List.mem_append_left _ (noted.joining n first joined slot hc)
  · obtain ⟨at_, h⟩ := noted.finished n hc fun at_ h => kept at_ (List.mem_append_left _ h)
    exact ⟨at_, List.mem_append_left _ h⟩
  · exact List.mem_append_left _ (noted.returned n at_ (returned h))

/-- A call of stop is made. -/
theorem called (noted : Noted s seen) (now : Instant) :
    Noted { s with calls := s.calls ++ [.fresh] } (seen ++ [(now, .did .call)]) := by
  have more : Noted s (seen ++ [(now, .did .call)]) := noted.quiet _ rfl (by simp)
  refine ⟨fun n at_ h => ?_, more.once, fun n first joined slot hc => ?_, fun n hc kept => ?_,
    more.returned⟩
  · obtain ⟨c, hc, begun⟩ := more.begun n at_ h
    exact ⟨c, by rw [List.getElem?_append_left (List.getElem?_eq_some_iff.1 hc).1, hc], begun⟩
  · rcases cases_of_getElem?_concat hc with hc | new
    · exact more.joining n first joined slot hc
    · cases new
  · rcases cases_of_getElem?_concat hc with hc | new
    · exact more.finished n hc kept
    · cases new

/-- A call of stop is given up. -/
theorem givenUp (noted : Noted s seen) (n : Nat) {supervisor : Supervisor}
    (now : supervisor.fleet.hub.now = s.supervisor.fleet.hub.now) :
    Noted { supervisor, calls := s.calls.set n .finished }
      (seen ++ [(s.supervisor.fleet.hub.now, .did (.giveUp n))]) := by
  have more : Noted { supervisor, calls := s.calls }
      (seen ++ [(s.supervisor.fleet.hub.now, .did (.giveUp n))]) :=
    noted.quiet supervisor now (by simp)
  refine ⟨fun m at_ h => ?_, more.once, fun m first joined slot hc => ?_, fun m hc kept => ?_,
    more.returned⟩
  · obtain ⟨c, hc, begun⟩ := more.begun m at_ h
    by_cases same : m = n
    · subst same
      exact ⟨.finished, getElem?_set_of_some hc _, rfl⟩
    · exact ⟨c, by rw [List.getElem?_set_ne (Ne.symm same)]; exact hc, begun⟩
  · rcases cases_of_getElem?_set hc with ⟨-, new⟩ | ⟨-, hc⟩
    · cases new
    · exact more.joining m first joined slot hc
  · rcases cases_of_getElem?_set hc with ⟨rfl, -⟩ | ⟨-, hc⟩
    · exact absurd (List.mem_append_right _ List.mem_cons_self) (kept _)
    · exact more.finished m hc kept

/-- A call of stop runs. -/
theorem polled (noted : Noted s seen) {n : Nat} (acted : s.act? (.poll n) = some t) :
    Noted t (seen ++ s.sights (.poll n)) := by
  obtain ⟨call, hc, rfl⟩ := Option.map_eq_some_iff.1 acted
  have now := (frame_pollStop s.supervisor call).1
  have begun := isFresh_pollStop s.supervisor call
  have new : ∀ {at_ m}, (at_, m) ∈ s.sights (.poll n) ↔ at_ = s.supervisor.fleet.hub.now ∧
      (m = .began n ∧ call.isFresh = true ∨
        m = .returned n ∧ call ≠ .finished ∧ (s.supervisor.pollStop call).2 = .finished) :=
    mem_sights_poll hc
  -- a call that has begun is not fresh
  have old : ∀ {m at_}, (at_, .began m) ∈ seen → call.isFresh = true → m ≠ n := by
    rintro m at_ h fresh rfl
    obtain ⟨c, hc', begun⟩ := noted.begun m at_ h
    rw [hc] at hc'
    cases hc'
    rw [fresh] at begun
    cases begun
  -- one that is not over begins now, or has begun at this instant
  have now_began : call ≠ .finished → (s.supervisor.fleet.hub.now, .began n) ∈
      seen ++ s.sights (.poll n) := by
    intro going
    cases call with
    | fresh => exact List.mem_append_right _ (new.2 ⟨rfl, .inl ⟨rfl, rfl⟩⟩)
    | joining first joined slot =>
      exact List.mem_append_left _ (noted.joining n first joined slot hc)
    | finished => exact absurd rfl going
  refine ⟨fun m at_ h => ?_, fun m at_ at' h h' => ?_, fun m first joined slot h => ?_,
    fun m h kept => ?_, fun m at_ h => ?_⟩
  · by_cases same : m = n
    · subst same
      exact ⟨_, getElem?_set_of_some hc _, begun⟩
    · obtain ⟨c, hc, started⟩ := noted.begun m at_
        ((List.mem_append.1 h).resolve_right fun h => by simp [new, same] at h)
      exact ⟨c, by rw [List.getElem?_set_ne (Ne.symm same)]; exact hc, started⟩
  · simp only [List.mem_append, new, Mark.began.injEq, reduceCtorEq, false_and, or_false] at h h'
    rcases h with h | ⟨rfl, rfl, fresh⟩
    · rcases h' with h' | ⟨-, same, fresh⟩
      · exact noted.once m at_ at' h h'
      · exact absurd same (old h fresh)
    · rcases h' with h' | ⟨same, -⟩
      · exact absurd rfl (old h' fresh)
      · exact same.symm
  · rcases cases_of_getElem?_set h with ⟨rfl, same⟩ | ⟨-, h⟩
    · rw [now]
      refine now_began ?_
      rintro rfl
      cases same
    · rw [now]
      exact List.mem_append_left _ (noted.joining m first joined slot h)
  · rcases cases_of_getElem?_set h with ⟨rfl, same⟩ | ⟨-, h⟩
    · by_cases isOver : call = .finished
      · subst isOver
        obtain ⟨at_, h⟩ := noted.finished m hc fun at_ h => kept at_ (List.mem_append_left _ h)
        exact ⟨at_, List.mem_append_left _ h⟩
      · exact ⟨_, List.mem_append_right _ (new.2 ⟨rfl, .inr ⟨rfl, isOver, same.symm⟩⟩)⟩
    · obtain ⟨at_, h⟩ := noted.finished m h fun at_ h => kept at_ (List.mem_append_left _ h)
      exact ⟨at_, List.mem_append_left _ h⟩
  · rcases List.mem_append.1 h with h | h
    · exact List.mem_append_left _ (noted.returned m at_ h)
    · simp only [new, Mark.returned.injEq, reduceCtorEq, false_and, false_or] at h
      obtain ⟨rfl, rfl, going, -⟩ := h
      exact now_began going

/-- Whatever happens is noted. -/
theorem act (noted : Noted s seen) (regular : s.Regular)
    (acted : s.timelyAct? spared a = some t) :
    Noted t (seen ++ s.sights a) := by
  cases timely_of_timelyAct? acted with
  | @pass time can =>
    simp only [canPass, Bool.and_eq_true] at can
    have same : seen ++ s.sights (.pass time) = seen := List.append_nil _
    rw [same]
    -- no call waits for a worker when the clock moves on
    refine ⟨noted.begun, noted.once, fun n first joined slot hc => ?_, noted.finished,
      noted.returned⟩
    rcases regular.over_of_rests can.1.2 (List.mem_of_getElem? hc) with c | c <;> cases c
  | act other acted =>
    have unconcerned : (∀ n, a ≠ .poll n) →
        ∀ e ∈ s.sights a, ∀ n, e.2 ≠ .began n ∧ e.2 ≠ .returned n := by
      intro none
      cases a with
      | poll n => exact absurd rfl (none n)
      | _ => simp [sights, marks]
    have now := (frame_act? other acted).1
    cases a with
    | start =>
      cases acted
      exact noted.quiet _ now (unconcerned (by simp))
    | call =>
      cases acted
      exact noted.called _
    | poll n => exact noted.polled acted
    | giveUp n =>
      obtain ⟨call, hc, rfl⟩ := Option.map_eq_some_iff.1 acted
      exact noted.givenUp n now
    | step slot =>
      obtain ⟨fleet, hf, rfl⟩ := Option.map_eq_some_iff.1 acted
      exact noted.quiet { s.supervisor with fleet } now (unconcerned (by simp))
    | receive =>
      obtain ⟨fleet, hf, rfl⟩ := Option.map_eq_some_iff.1 acted
      exact noted.quiet { s.supervisor with fleet } now (unconcerned (by simp))
    | pass time => cases other

theorem run (noted : Noted s seen) (regular : s.Regular)
    (ran : s.timely? spared acts = some (t, later)) : Noted t (seen ++ later) := by
  induction acts generalizing s seen later with
  | nil =>
    cases ran
    simpa using noted
  | cons a acts ih =>
    obtain ⟨s', later', acted, rest, rfl⟩ := exists_of_timely?_cons ran
    rw [← List.append_assoc]
    exact ih (noted.act regular acted) (regular.act acted) rest

/-- When everybody waits, a call of stop that was not given up has returned at the instant at which
it ran first. -/
theorem returned_iff (noted : Noted s seen) (regular : s.Regular) (rests : s.rests spared = true)
    {n : Nat} (kept : ∀ at_, (at_, .did (.giveUp n)) ∉ seen) (at_ : Instant) :
    (at_, .returned n) ∈ seen ↔ (at_, .began n) ∈ seen := by
  refine ⟨noted.returned n at_, fun began => ?_⟩
  obtain ⟨c, hc, begun⟩ := noted.begun n at_ began
  rcases regular.over_of_rests rests (List.mem_of_getElem? hc) with rfl | rfl
  · cases begun
  · obtain ⟨at', returned⟩ := noted.finished n hc kept
    rwa [noted.once n at_ at' began (noted.returned n at' returned)]

end Noted

end Supervision

end FeedCapture
