import FeedCapture.Proofs.Fleet.Allowance
import FeedCapture.Proofs.Supervisor.Timely
import FeedCapture.Session

/-!
# A session lets everybody go on until they wait

How many turns workers and consumer get at an instant, and how many instants are gone through on the
way to a control step, is given beforehand.  Under a paced policy that is enough: everybody waits
afterwards, the clock has reached the time of the control step, and waiting for a message ends with
a message, with the end or at the deadline.

## Main definitions

* `Session.Waits` — everybody waits
* `Session.Spent` — later in the same instant
* `Session.Reached` — everybody waits, at another instant

The main statements are `waits_settle`, `reached_advance`, `onward_await` and `waits_run`.
-/

namespace FeedCapture

theorem Capture.fleet_withFleet (c : Capture) (f : Fleet) : (c.withFleet f).fleet = f := by
  cases c <;> rfl

/-- Receiving a message leaves time and policy as they are. -/
theorem Fleet.frame_receive? {f g : Fleet} {m : Message} (received : f.receive? = some (m, g)) :
    g.hub.now = f.hub.now ∧ g.hub.policy = f.hub.policy := by
  obtain ⟨⟨m, bus⟩, -, same⟩ := Option.map_eq_some_iff.1 received
  cases same
  exact ⟨rfl, rfl⟩

namespace Session

open Fleet

variable {s t u : Session} {effort fuel : Nat} {target : Instant}

theorem fleet_withFleet (s : Session) (f : Fleet) : (s.withFleet f).fleet = f :=
  s.capture.fleet_withFleet f

/-- Everybody waits. -/
structure Waits (s : Session) : Prop where
  workers : s.fleet.canStep = false
  consumer : s.canServe = false

/-! ## Workers and consumer in turn -/

/-- What is still to be done at an instant: a prompt consumer has the end to receive, too. -/
def load (s : Session) : Nat := s.fleet.load + (decide (s.consumer = .prompt)).toNat

/-- Later in the same instant: nothing was given to do. -/
structure Spent (s t : Session) : Prop where
  policy : t.fleet.hub.policy = s.fleet.hub.policy
  now : t.now = s.now
  allowance : t.fleet.allowance t.now ≤ s.fleet.allowance s.now
  load : t.load ≤ s.load

theorem Spent.trans (first : Spent s t) (rest : Spent t u) : Spent s u :=
  ⟨rest.policy.trans first.policy, rest.now.trans first.now,
    Nat.le_trans rest.allowance first.allowance, Nat.le_trans rest.load first.load⟩

theorem spent_settleWithin (paced : s.fleet.hub.policy.Paced) (effort : Nat) :
    Spent s (s.withFleet (s.fleet.settleWithin effort)) := by
  have spent := spent_rounds paced effort effort
  have le := spent.le
  have now : (s.withFleet (s.fleet.settleWithin effort)).now = s.now := by
    rw [Session.now, fleet_withFleet]
    exact spent.now
  refine ⟨?_, now, ?_, ?_⟩
  · rw [fleet_withFleet]
    exact spent.policy
  · rw [fleet_withFleet, now]
    exact le
  · rw [load, fleet_withFleet]
    exact Nat.add_le_add_right spent.load _

/-- When the consumer receives a message or the end, less is to be done. -/
theorem spent_serve (can : s.canServe = true) : Spent s s.serve ∧ s.serve.load < s.load := by
  have prompt : s.consumer = .prompt := of_decide_eq_true (Bool.and_eq_true_iff.1 can).1
  cases taken : s.fleet.hub.bus.take? with
  | some got =>
    obtain ⟨m, bus⟩ := got
    have queue := Bus.queue_of_take? taken
    have fleet : s.serve.fleet = { s.fleet with hub := { s.fleet.hub with bus } } := by
      simp only [serve, receive?, taken, Option.map_some]
      exact s.fleet_withFleet _
    have consumer : s.serve.consumer = s.consumer := by
      simp only [serve, receive?, taken, Option.map_some]
      rfl
    have less : s.serve.load < s.load := by
      simp [load, Fleet.load, allowance, fleet, consumer, queue]
    refine ⟨⟨?_, ?_, ?_, Nat.le_of_lt less⟩, less⟩
    all_goals simp [now, allowance, fleet]
  | none =>
    have fleet : s.serve.fleet = s.fleet := by
      simp only [serve, receive?, taken, Option.map_none]
      rfl
    have consumer : s.serve.consumer = .gone := by simp [serve, receive?, taken]
    have less : s.serve.load < s.load := by simp [load, fleet, consumer, prompt]
    refine ⟨⟨?_, ?_, ?_, Nat.le_of_lt less⟩, less⟩
    all_goals simp [now, fleet]

/-- With turns enough, everybody comes to wait. -/
theorem waits_turns (paced : s.fleet.hub.policy.Paced) (some_ : effort ≠ 0)
    (covers : s.fleet.allowance s.now ≤ effort) (enough : s.load < fuel) :
    (turns effort fuel s).Waits ∧ Spent s (turns effort fuel s) := by
  induction fuel generalizing s with
  | zero => exact absurd enough (Nat.not_lt_zero _)
  | succ fuel ih =>
    have settled := spent_settleWithin paced effort
    have waits := canStep_settleWithin paced some_ covers
    simp only [turns]
    split
    · next can =>
      obtain ⟨served, less⟩ := spent_serve can
      have spent := settled.trans served
      have load := settled.load
      obtain ⟨waits, rest⟩ := ih (spent.policy ▸ paced)
        (Nat.le_trans spent.allowance covers) (by omega)
      exact ⟨waits, spent.trans rest⟩
    · next still =>
      exact ⟨⟨by rw [fleet_withFleet]; exact waits, by simpa using still⟩, settled⟩

/-- **Everybody comes to wait.**  Workers and consumer wait after they were let go on, at the same
instant. -/
theorem waits_settle (paced : s.fleet.hub.policy.Paced) : s.settle.Waits ∧ Spent s s.settle := by
  have covers := s.fleet.allowance_le_effort
  refine waits_turns paced s.fleet.effort_ne_zero covers ?_
  have one := Bool.toNat_le (decide (s.consumer = .prompt))
  simp only [load, Fleet.load]
  omega

/-! ## Time passes -/

@[simp] theorem now_moveTo (s : Session) (t : Instant) : (s.moveTo t).now = t := by
  rw [Session.now, Session.moveTo, fleet_withFleet]
  rfl

@[simp] theorem policy_moveTo (s : Session) (t : Instant) :
    (s.moveTo t).fleet.hub.policy = s.fleet.hub.policy := by
  rw [Session.moveTo, fleet_withFleet]
  rfl

/-- Everybody goes on waiting until the first worker goes on by itself. -/
theorem Waits.moveTo (waits : s.Waits) {t : Instant}
    (early : ∀ wake, s.fleet.wakeAt = some wake → t < wake) : (s.moveTo t).Waits := by
  refine ⟨?_, ?_⟩
  · rw [Session.moveTo, fleet_withFleet]
    exact canStep_moveTo waits.workers early
  · have still := waits.consumer
    simp only [canServe, Session.moveTo, fleet_withFleet] at still ⊢
    exact still

/-- Everybody waits at an instant, and the policy is what it was. -/
structure Reached (s : Session) (at_ : Instant) (t : Session) : Prop where
  waits : t.Waits
  now : t.now = at_
  policy : t.fleet.hub.policy = s.fleet.hub.policy

/-- When nobody goes on by itself in between, the clock moves on to the target. -/
theorem reached_moveTo (paced : s.fleet.hub.policy.Paced)
    (quiet : ∀ wake, s.settle.fleet.wakeAt = some wake → ¬(s.now < wake ∧ wake ≤ target)) :
    Reached s (max s.now target) (s.settle.moveTo (max s.now target)) := by
  obtain ⟨waits, spent⟩ := waits_settle paced
  refine ⟨waits.moveTo fun wake first => ?_, now_moveTo .., (policy_moveTo ..).trans spent.policy⟩
  have later : s.now < wake := spent.now ▸ now_lt_of_wakeAt waits.workers first
  exact Nat.max_lt.2 ⟨later, Nat.lt_of_not_le fun le => quiet wake first ⟨later, le⟩⟩

/-- The clock comes closer to the target when it moves on to a worker that goes on by itself. -/
theorem closer_of_lt {now wake : Instant} (later : now < wake) (soon : wake ≤ target)
    (enough : target - now < fuel + 1) : target - wake < fuel :=
  Nat.lt_of_lt_of_le (Nat.sub_lt_sub_left (Nat.lt_of_lt_of_le later soon) later)
    (Nat.le_of_lt_succ enough)

theorem max_wake_eq {now wake : Instant} (later : now < wake) (soon : wake ≤ target) :
    max wake target = max now target := by
  rw [Nat.max_eq_right soon, Nat.max_eq_right (Nat.le_trans (Nat.le_of_lt later) soon)]

/-- With instants enough, the clock reaches its target while everybody waits. -/
theorem reached_pass (paced : s.fleet.hub.policy.Paced) (enough : target - s.now < fuel) :
    Reached s (max s.now target) (pass target fuel s) := by
  induction fuel generalizing s with
  | zero => exact absurd enough (Nat.not_lt_zero _)
  | succ fuel ih =>
    obtain ⟨-, spent⟩ := waits_settle paced
    have now : s.settle.now = s.now := spent.now
    have moved : ∀ t, (s.settle.moveTo t).fleet.hub.policy = s.fleet.hub.policy := fun t =>
      (policy_moveTo ..).trans spent.policy
    simp only [pass, now]
    split
    · next wake first =>
      split
      · next soon =>
        obtain ⟨later, soon⟩ := soon
        obtain ⟨waits, reached, policy⟩ := ih (moved wake ▸ paced)
          (by rw [now_moveTo]; exact closer_of_lt later soon enough)
        rw [now_moveTo, max_wake_eq later soon] at reached
        exact ⟨waits, reached, policy.trans (moved wake)⟩
      · next late =>
        refine reached_moveTo paced fun _ again => ?_
        cases first.symm.trans again
        exact late
    · next none => exact reached_moveTo paced fun wake first => by simp [none] at first

/-- **Time passes.**  When a session lets time pass, everybody waits afterwards, and the clock
stands at the target unless that was over. -/
theorem reached_advance (paced : s.fleet.hub.policy.Paced) (target : Instant) :
    Reached s (max s.now target) (s.advance target) :=
  reached_pass paced (Nat.lt_succ_self _)

/-! ## Control steps -/

/-- Later, under the same policy. -/
structure Onward (s t : Session) : Prop where
  policy : t.fleet.hub.policy = s.fleet.hub.policy
  now : s.now ≤ t.now

theorem Onward.refl (s : Session) : Onward s s := ⟨rfl, Nat.le_refl _⟩

theorem Onward.trans (first : Onward s t) (rest : Onward t u) : Onward s u :=
  ⟨rest.policy.trans first.policy, Nat.le_trans first.now rest.now⟩

theorem Spent.onward (spent : Spent s t) : Onward s t := ⟨spent.policy, Nat.le_of_eq spent.now.symm⟩

theorem Reached.onward {at_ : Instant} (reached : Reached s at_ t) (later : s.now ≤ at_) :
    Onward s t := ⟨reached.policy, reached.now ▸ later⟩

theorem onward_of_hub (now : t.fleet.hub.now = s.fleet.hub.now)
    (policy : t.fleet.hub.policy = s.fleet.hub.policy) : Onward s t :=
  ⟨policy, Nat.le_of_eq now.symm⟩

theorem onward_withFleet {f : Fleet} (now : f.hub.now = s.fleet.hub.now)
    (policy : f.hub.policy = s.fleet.hub.policy) : Onward s (s.withFleet f) :=
  onward_of_hub (by rw [fleet_withFleet, now]) (by rw [fleet_withFleet, policy])

theorem frame_takeMany (f : Fleet) (count : Nat) :
    (takeMany f count).1.hub.now = f.hub.now ∧ (takeMany f count).1.hub.policy = f.hub.policy := by
  induction count generalizing f with
  | zero => exact ⟨rfl, rfl⟩
  | succ count ih =>
    simp only [takeMany]
    split
    · exact ⟨rfl, rfl⟩
    · next m g received =>
      obtain ⟨now, policy⟩ := frame_receive? received
      exact ⟨(ih g).1.trans now, (ih g).2.trans policy⟩

theorem onward_start (s : Session) : Onward s s.start.1 := by
  obtain ⟨capture, consumer, receipts⟩ := s
  cases capture with
  | supervised c =>
    have hub : c.start.fleet.hub = c.fleet.hub := Supervision.hub_start c
    exact onward_of_hub (congrArg Hub.now hub) (congrArg Hub.policy hub)
  | crew sources f started =>
    cases started with
    | true => exact .refl _
    | false => exact onward_of_hub rfl rfl

/-- A call of stop that is polled leaves time and policy as they are. -/
theorem onward_pollStop (c : Supervisor) (consumer : Consumer) (receipts : List Receipt)
    (call : StopCall) :
    Onward ⟨.supervised c, consumer, receipts⟩
      ⟨.supervised (c.pollStop call).1, consumer, receipts⟩ :=
  onward_of_hub (Supervision.frame_pollStop c call).1 (Supervision.frame_pollStop c call).2

theorem onward_stop (paced : s.fleet.hub.policy.Paced) : Onward s s.stop := by
  obtain ⟨capture, consumer, receipts⟩ := s
  cases capture with
  | supervised c =>
    have called := onward_pollStop c consumer receipts .fresh
    have settled := called.trans (waits_settle (called.policy ▸ paced)).2.onward
    simp only [stop]
    split
    · next c' same =>
      refine settled.trans (.trans ?_ (onward_pollStop c' _ _ _))
      rw [← same]
      exact .refl _
    · exact settled
  | crew sources f started => exact onward_of_hub rfl rfl

theorem onward_stopAbandoned (s : Session) : Onward s s.stopAbandoned.1 := by
  obtain ⟨capture, consumer, receipts⟩ := s
  cases capture with
  | supervised c =>
    refine .trans (onward_pollStop c consumer receipts .fresh) ?_
    simp only [stopAbandoned]
    cases (c.pollStop .fresh).2 <;> exact onward_of_hub rfl rfl
  | crew sources f started => exact .refl _

/-- Somebody waited for a message in vain: until the deadline, when no message is there and more can
still come. -/
structure InVain (s : Session) (deadline : Instant) (t : Session) : Prop where
  reached : Reached s (max s.now deadline) t
  empty : t.fleet.receive? = none
  open_ : t.fleet.atEnd = false

/-- When nobody goes on by itself in between and nothing can be received, the wait is in vain. -/
theorem inVain_moveTo (paced : s.fleet.hub.policy.Paced) (nothing : s.settle.fleet.receive? = none)
    (more : s.settle.fleet.atEnd = false)
    (quiet : ∀ wake, s.settle.fleet.wakeAt = some wake → ¬(s.now < wake ∧ wake ≤ target)) :
    InVain s target (s.settle.moveTo (max s.now target)) := by
  refine ⟨reached_moveTo paced quiet, ?_, ?_⟩
  · rw [Session.moveTo, fleet_withFleet]
    simp only [receive?, Option.map_eq_none_iff] at nothing ⊢
    exact nothing
  · rw [Session.moveTo, fleet_withFleet]
    exact more

theorem InVain.onward (vain : InVain s target t) : Onward s t :=
  vain.reached.onward (Nat.le_max_left ..)

/-- With instants enough, waiting for a message is given up at the deadline only. -/
theorem onward_await (paced : s.fleet.hub.policy.Paced) (enough : target - s.now < fuel) :
    Onward s (await target fuel s).1 ∧
      ((await target fuel s).2 = .timedOut → InVain s target (await target fuel s).1) := by
  induction fuel generalizing s with
  | zero => exact absurd enough (Nat.not_lt_zero _)
  | succ fuel ih =>
    obtain ⟨-, spent⟩ := waits_settle paced
    have now : s.settle.now = s.now := spent.now
    simp only [await, now]
    split
    · next m f received =>
      obtain ⟨now, policy⟩ := frame_receive? received
      exact ⟨spent.onward.trans (onward_withFleet now policy), fun told => by cases told⟩
    · next nothing =>
      split
      · exact ⟨spent.onward, fun told => by cases told⟩
      · next more =>
        have vain := @inVain_moveTo s target paced nothing (Bool.eq_false_iff.2 more)
        split
        · next wake first =>
          split
          · next soon =>
            obtain ⟨later, soon⟩ := soon
            have moved : Onward s (s.settle.moveTo wake) :=
              ⟨(policy_moveTo ..).trans spent.policy, by
                rw [now_moveTo]; exact Nat.le_of_lt later⟩
            obtain ⟨onward, told⟩ := ih (moved.policy ▸ paced)
              (by rw [now_moveTo]; exact closer_of_lt later soon enough)
            refine ⟨moved.trans onward, fun out => ?_⟩
            obtain ⟨⟨waits, reached, policy⟩, empty, open_⟩ := told out
            rw [now_moveTo, max_wake_eq later soon] at reached
            exact ⟨⟨waits, reached, policy.trans moved.policy⟩, empty, open_⟩
          · next late =>
            have vain := vain fun _ again => by cases first.symm.trans again; exact late
            exact ⟨vain.onward, fun _ => vain⟩
        · next none =>
          have vain := vain fun wake first => by simp [none] at first
          exact ⟨vain.onward, fun _ => vain⟩

/-- Control steps leave the policy as it is, and the clock does not go back. -/
theorem onward_act (paced : s.fleet.hub.policy.Paced) (what : Step) : Onward s (s.act what).1 := by
  cases what with
  | start => exact onward_start s
  | stop => exact onward_stop paced
  | stopAbandoned => exact onward_stopAbandoned s
  | closeAll => exact onward_withFleet rfl rfl
  | closeBus =>
    simp only [act]
    split
    · exact .refl s
    · exact onward_withFleet rfl rfl
  | dropReceivers =>
    exact (onward_withFleet (f := s.fleet.dropReceivers) rfl rfl).trans (onward_of_hub rfl rfl)
  | messagesFor source => exact onward_withFleet rfl rfl
  | tryReceive count =>
    obtain ⟨now, policy⟩ := frame_takeMany s.fleet count
    exact onward_withFleet now policy
  | receive within =>
    refine (onward_await paced ?_).1
    rw [Nat.add_sub_cancel_left]
    exact Nat.lt_succ_self _
  | _ => exact .refl s

/-- Everybody waits when a control step has ended, which is not before its time. -/
theorem reached_step (paced : s.fleet.hub.policy.Paced) (time : Instant) (what : Step) :
    Reached s (s.step time what).2.1 (s.step time what).1 ∧
      s.now ≤ (s.step time what).2.1 ∧ time ≤ (s.step time what).2.1 := by
  have advanced := reached_advance paced time
  have acted := onward_act (advanced.policy ▸ paced) what
  have later := acted.now
  rw [advanced.now] at later
  have policy := acted.policy.trans advanced.policy
  obtain ⟨waits, spent⟩ := waits_settle (policy ▸ paced)
  exact ⟨⟨waits, spent.now, spent.policy.trans policy⟩,
    Nat.le_trans (Nat.le_max_left ..) later, Nat.le_trans (Nat.le_max_right ..) later⟩

/-- **Control steps come to an end.**  Under a paced policy every control step is answered, one
after another and none before its time, and everybody waits in the end. -/
theorem waits_run (paced : s.fleet.hub.policy.Paced) (waits : s.Waits)
    (steps : List (Instant × Step)) :
    (s.run steps).1.Waits ∧
      List.Forall₂ (fun step answer => step.1 ≤ answer.1) steps (s.run steps).2 ∧
      List.IsChain (· ≤ ·) (s.now :: (s.run steps).2.map Prod.fst) := by
  induction steps generalizing s with
  | nil => exact ⟨waits, .nil, .singleton _⟩
  | cons step steps ih =>
    obtain ⟨time, what⟩ := step
    obtain ⟨reached, later, due⟩ := reached_step paced time what
    obtain ⟨waits, answered, ordered⟩ := ih (reached.policy ▸ paced) reached.waits
    rw [reached.now] at ordered
    exact ⟨waits, .cons due answered, .cons_cons later ordered⟩

end Session

end FeedCapture
