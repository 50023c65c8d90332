import FeedCapture.Proofs.Supervisor.Joining

/-!
# Supervisors before they stop

What holds in every state that a supervisor can reach.  Until the first call of stop runs, nobody
has closed the bus, no call waits for a worker, and nobody has joined one.

## Main definitions

* `Supervision.Tended` — the fleet is wired, and nothing of a stop has happened before there is one

The main statement says that every reachable state is tended (`tended_of_run?`).
-/

namespace FeedCapture

namespace Fleet

variable {f g : Fleet}

/-- What workers, receiver and clock never change. -/
structure Framed (f g : Fleet) : Prop where
  length : g.workers.length = f.workers.length
  spare : g.spareSender = f.spareSender
  own : g.hub.bus.ownSender = f.hub.bus.ownSender

theorem framed_stepWorker? {slot : Nat} (h : f.stepWorker? slot = some g) : Framed f g := by
  obtain ⟨w, s, hw, hs, rfl⟩ := exists_of_stepWorker? h
  have kept := Worker.kept_of_transition (Worker.transition_of_step? hs)
  exact ⟨by simp [afterStep], rfl, kept.ownSender⟩

theorem framed_receive (h : f.act? .receive = some g) : Framed f g := by
  obtain ⟨⟨m, g⟩, hr, rfl⟩ := Option.map_eq_some_iff.1 h
  obtain ⟨⟨m', b⟩, ht, taken⟩ := Option.map_eq_some_iff.1 hr
  cases taken
  exact ⟨rfl, rfl, (Bus.frame_of_take? ht).2.2⟩

theorem framed_pass {t : Instant} (h : f.act? (.pass t) = some g) : Framed f g := by
  simp only [act?, Option.ite_none_right_eq_some, Option.some.injEq] at h
  obtain ⟨-, rfl⟩ := h
  exact ⟨rfl, rfl, rfl⟩

end Fleet

namespace Supervisor

/-- A new supervisor obeys a valid policy and has a new bus. -/
theorem create_eq_ok {sources : List String} {policy : Policy} {network : Network}
    {counting : Bool} {supervisor : Supervisor}
    (h : create sources policy network counting = .ok supervisor) :
    policy.check = .ok () ∧
      Bus.withCapacity Nat policy.busCapacity = .ok { capacity := policy.busCapacity } ∧
      supervisor =
        { sources
          fleet :=
            Fleet.create policy network { capacity := policy.busCapacity } counting false } := by
  unfold create at h
  split at h
  · cases h
  · next valid =>
    split at h
    · cases h
    · next bus built =>
      cases h
      obtain rfl := Bus.eq_of_withCapacity built
      exact ⟨valid, built, rfl⟩

end Supervisor

namespace Supervision

/-- The fleet is wired, and nothing of a stop has happened before there is one. -/
structure Tended (s : Supervision) : Prop where
  wired : s.supervisor.fleet.Wired
  spare : s.supervisor.fleet.spareSender = false
  idle : s.supervisor.started = false → s.supervisor.fleet.workers = []
  waiting : s.supervisor.stopped = false → ∀ c ∈ s.calls, c = .fresh ∨ c = .finished
  sender : s.supervisor.stopped = false → s.supervisor.fleet.hub.bus.ownSender = true
  unjoined : s.supervisor.stopped = false →
    s.supervisor.unjoined = List.range s.supervisor.fleet.workers.length

/-- A new supervisor has no workers and no calls of stop. -/
theorem tended_create {sources : List String} {policy : Policy} {network : Network}
    {counting : Bool} {supervisor : Supervisor}
    (h : Supervisor.create sources policy network counting = .ok supervisor) :
    Tended { supervisor } := by
  obtain ⟨-, built, rfl⟩ := Supervisor.create_eq_ok h
  exact ⟨Fleet.wired_create _ _ _ _ _, rfl, fun _ => rfl, fun _ c hc => (by cases hc),
    fun _ => rfl, fun _ => rfl⟩

namespace Tended

variable {s t : Supervision}

theorem start (h : s.Tended) : Tended { s with supervisor := s.supervisor.start } := by
  unfold Supervisor.start
  split
  · exact ⟨h.wired, h.spare, h.idle, h.waiting, h.sender, h.unjoined⟩
  · next unstopped =>
    have unstopped : s.supervisor.stopped = false := by simpa using unstopped
    split
    · exact ⟨h.wired, h.spare, h.idle, h.waiting, h.sender, h.unjoined⟩
    · next unstarted =>
      have none := h.idle (by simpa using unstarted)
      dsimp only
      split
      · next closed =>
        rw [h.sender unstopped] at closed
        cases closed
      · refine ⟨h.wired.spawn none _, rfl, fun c => (by cases c), h.waiting, h.sender, fun _ => ?_⟩
        show List.range s.supervisor.sources.length = List.range (List.length _)
        simp [Supervisor.note, Fleet.spawn]

/-- A call of stop that is over or was given up changes nothing before there is a stop. -/
theorem setOver (h : s.Tended) (n : Nat) : Tended { s with calls := s.calls.set n .finished } := by
  refine ⟨h.wired, h.spare, h.idle, fun unstopped c hc => ?_, h.sender, h.unjoined⟩
  rcases List.mem_or_eq_of_mem_set hc with hc | rfl
  · exact h.waiting unstopped c hc
  · exact .inr rfl

/-- Once there is a stop, joining keeps the fleet wired. -/
theorem joined (h : s.Tended) (stopped : s.supervisor.stopped = true) (first : Bool)
    (count : Nat) (slots : List Nat) (calls : List StopCall) :
    Tended { supervisor := (Supervisor.joinWorkers first count slots s.supervisor).1, calls } := by
  have after : (Supervisor.joinWorkers first count slots s.supervisor).1.stopped ≠ false := by
    simp [stopped]
  rcases Supervisor.fleet_joinWorkers first count slots s.supervisor with same | same
  · refine ⟨?_, ?_, ?_, fun c => absurd c after, fun c => absurd c after, fun c => absurd c after⟩
    · rw [same]; exact h.wired
    · rw [same]; exact h.spare
    · rw [same, Supervisor.started_joinWorkers]; exact h.idle
  · refine ⟨?_, ?_, ?_, fun c => absurd c after, fun c => absurd c after, fun c => absurd c after⟩
    · rw [same]; exact h.wired.closedBus
    · rw [same]; exact h.spare
    · rw [same, Supervisor.started_joinWorkers]; exact h.idle

/-- The workers, the receiver and the clock change nothing about it. -/
theorem framed (h : s.Tended) {fleet : Fleet} (wired : fleet.Wired)
    (frame : Fleet.Framed s.supervisor.fleet fleet) :
    Tended { s with supervisor := { s.supervisor with fleet } } where
  wired := wired
  spare := frame.spare.trans h.spare
  idle unstarted := by
    have none := frame.length
    rw [h.idle unstarted] at none
    exact List.length_eq_zero_iff.1 none
  waiting := h.waiting
  sender unstopped := frame.own.trans (h.sender unstopped)
  unjoined unstopped := by
    show s.supervisor.unjoined = List.range fleet.workers.length
    rw [frame.length]
    exact h.unjoined unstopped

/-- The first call of stop signals the workers. -/
theorem signal (h : s.Tended) (calls : List StopCall) :
    Tended { supervisor := s.supervisor.signal, calls } :=
  ⟨h.wired.stopped.closedAll, h.spare, h.idle, fun c => (by cases c), fun c => (by cases c),
    fun c => by cases c⟩

theorem poll (h : s.Tended) {n : Nat} (ht : s.act? (.poll n) = some t) : t.Tended := by
  obtain ⟨call, hc, rfl⟩ := Option.map_eq_some_iff.1 ht
  have known : s.supervisor.stopped = false → call = .fresh ∨ call = .finished := fun unstopped =>
    h.waiting unstopped call (List.mem_of_getElem? hc)
  cases call with
  | fresh =>
    simp only [Supervisor.pollStop]
    cases stopped : s.supervisor.stopped with
    | true => simpa using h.joined stopped false 0 _ _
    | false => simpa using (h.signal s.calls).joined rfl true 0 _ _
  | joining first count slot =>
    have stopped : s.supervisor.stopped = true := by
      cases stopped : s.supervisor.stopped with
      | true => rfl
      | false => rcases known stopped with c | c <;> cases c
    have same : ∀ calls, Tended { s with calls } := fun calls =>
      ⟨h.wired, h.spare, h.idle, fun c => by simp [stopped] at c, h.sender, h.unjoined⟩
    simp only [Supervisor.pollStop]
    split
    · have noted : Tended { s with supervisor := s.supervisor.noteJoin slot } := by
        refine ⟨?_, ?_, ?_, fun c => ?_, fun c => ?_, fun c => ?_⟩
        · rw [Supervisor.fleet_noteJoin]; exact h.wired
        · rw [Supervisor.fleet_noteJoin]; exact h.spare
        · rw [Supervisor.fleet_noteJoin, Supervisor.started_noteJoin]; exact h.idle
        all_goals simp [stopped] at c
      exact noted.joined (by simp [stopped]) first (count + 1) _ _
    · exact same _
  | finished => simpa [Supervisor.pollStop] using h.setOver n

/-- Whatever happens to a supervisor, it stays tended. -/
theorem act {a : Act} (h : s.Tended) (ht : s.act? a = some t) : t.Tended := by
  cases a with
  | start => cases ht; exact h.start
  | call =>
    cases ht
    refine ⟨h.wired, h.spare, h.idle, fun unstopped c hc => ?_, h.sender, h.unjoined⟩
    rcases List.mem_append.1 hc with hc | hc
    · exact h.waiting unstopped c hc
    · exact .inl (List.mem_singleton.1 hc)
  | poll n => exact h.poll ht
  | giveUp n =>
    obtain ⟨call, hc, rfl⟩ := Option.map_eq_some_iff.1 ht
    have given := h.setOver n
    cases call with
    | joining first count slot =>
      refine ⟨h.wired.closedBus, h.spare, h.idle, given.waiting, fun unstopped => ?_, h.unjoined⟩
      rcases h.waiting unstopped _ (List.mem_of_getElem? hc) with c | c <;> cases c
    | fresh => exact given
    | finished => exact given
  | step slot =>
    obtain ⟨fleet, hf, rfl⟩ := Option.map_eq_some_iff.1 ht
    exact h.framed (h.wired.act hf) (Fleet.framed_stepWorker? hf)
  | receive =>
    obtain ⟨fleet, hf, rfl⟩ := Option.map_eq_some_iff.1 ht
    exact h.framed (h.wired.act hf) (Fleet.framed_receive hf)
  | pass time =>
    obtain ⟨fleet, hf, rfl⟩ := Option.map_eq_some_iff.1 ht
    exact h.framed (h.wired.act hf) (Fleet.framed_pass hf)

theorem run {acts : List Act} (h : s.Tended) (ran : s.run? acts = some t) : t.Tended := by
  induction acts generalizing s with
  | nil => cases ran; exact h
  | cons a acts ih =>
    obtain ⟨s', hs, ran⟩ := Option.bind_eq_some_iff.1 ran
    exact ih (h.act hs) ran

end Tended

/-- Every state that a supervisor can reach is tended. -/
theorem tended_of_run? {sources : List String} {policy : Policy} {network : Network}
    {counting : Bool} {supervisor : Supervisor} {acts : List Act} {s : Supervision}
    (created : Supervisor.create sources policy network counting = .ok supervisor)
    (ran : run? { supervisor } acts = some s) : s.Tended :=
  (tended_create created).run ran

end Supervision

end FeedCapture
