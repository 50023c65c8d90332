import FeedCapture.Proofs.Race.Handles

/-!
# The end of the stream

However calls of start and of stop race and are given up: a receive sees the end only when every
worker has ended and every message was handed out.  When a call of stop that has run is over or was
given up, and nothing that has begun can go on, every worker has ended, and the end comes once what
is queued was received.

## Main definitions

* `Race.Closing` — what follows from the flag, and from a call of stop that is over

The main statement is `Race.ends_of_race`.
-/

namespace FeedCapture.Race

variable {r t u : Race} {a : Act} {acts : List Act}

/-! ## The stop signal and the bus -/

/-- An entry that is not replaced stays in a list. -/
theorem mem_set_of_ne {α : Type} {l : List α} {n : Nat} {x y z : α} (mem : x ∈ l)
    (at_n : l[n]? = some y) (other : y ≠ x) : x ∈ l.set n z := by
  obtain ⟨m, hm⟩ := List.getElem?_of_mem mem
  refine List.mem_of_getElem? ((List.getElem?_set_ne ?_).trans hm)
  rintro rfl
  exact other (Option.some.inj (at_n.symm.trans hm))

/-- What follows from the flag, and from a call of stop that is over. -/
structure Closing (r : Race) : Prop where
  /-- The workers were told to stop, or the call that set the flag is about to tell them. -/
  signal : r.supervisor.stopped = true → r.fleet.Signalled ∨ .flagged ∈ r.stops
  closed : .finished ∈ r.stops → r.fleet.hub.bus.ownSender = false ∧ r.supervisor.stopped = true

theorem signalled_of_act? (signalled : r.fleet.Signalled) (wired : r.fleet.Wired)
    (ht : r.act? a = some t) : t.fleet.Signalled := by
  cases moves_of_act? ht with
  | still same => exact same ▸ signalled
  | act own keep act => exact signalled.act wired act
  | spare held made holds same =>
    rw [same]
    exact signalled
  | spawn made source same =>
    rw [same]
    exact signalled

theorem ownSender_of_act? (closed : r.fleet.hub.bus.ownSender = false)
    (ht : r.act? a = some t) : t.fleet.hub.bus.ownSender = false := by
  cases moves_of_act? ht with
  | still same => exact same ▸ closed
  | act own keep act => exact Fleet.ownSender_of_act? closed act
  | spare held made holds same =>
    rw [same]
    exact closed
  | spawn made source same =>
    rw [same]
    exact closed

/-- Who set the flag tells the workers to stop next. -/
theorem signal_of_act? (wired : r.fleet.Wired)
    (signal : r.fleet.Signalled ∨ .flagged ∈ r.stops) (ht : r.act? a = some t) :
    t.fleet.Signalled ∨ .flagged ∈ t.stops := by
  rcases signal with signalled | flagged
  · exact .inl (signalled_of_act? signalled wired ht)
  · cases change_of_act? ht with
    | started => exact .inr flagged
    | stopped => exact .inr (List.mem_append_left _ flagged)
    | start made free goes => exact .inr flagged
    | @stop n call next s made free goes =>
      cases goes with
      | cancels => exact .inl (TokenTree.fired_cancel wired.stop)
      | _ => exact .inr (mem_set_of_ne flagged made (by simp))
    | giveUp made drops =>
      cases drops with
      | unused => exact .inr (mem_set_of_ne flagged made (by simp))
      | forsakes => exact .inr (mem_set_of_ne flagged made (by simp))
    | fleet kind act => exact .inr flagged

/-- The flag is set by a call that is about to tell the workers to stop. -/
theorem flagged_of_act? (unstopped : r.supervisor.stopped = false) (ht : r.act? a = some t)
    (stopped : t.supervisor.stopped = true) (quiet : r.Quiet) : .flagged ∈ t.stops := by
  have same : ∀ {p : Prop}, t.supervisor.stopped = r.supervisor.stopped → p := by
    intro p same
    rw [same, unstopped] at stopped
    cases stopped
  cases change_of_act? ht with
  | started => exact same rfl
  | stopped => exact same rfl
  | start made free goes => exact same goes.frame.2.1
  | @stop n call next s made free goes =>
    rcases quiet.waiting unstopped call (List.mem_of_getElem? made) with rfl | rfl
    · cases goes with
      | follows => exact same rfl
      | flags => exact List.mem_set (List.getElem?_eq_some_iff.1 made).1 _
    · cases goes
  | giveUp made drops => exact same drops.frame.2.2.1
  | fleet kind act => exact same rfl

/-- A call of stop that is over has closed the bus, and found the flag set or set it. -/
theorem closed_of_act? (quiet : r.Quiet) (ht : r.act? a = some t) (isOver : .finished ∈ t.stops) :
    .finished ∈ r.stops ∨
      t.fleet.hub.bus.ownSender = false ∧ t.supervisor.stopped = true := by
  -- only a call that found the flag set can come to its end
  have stopped : ∀ {n : Nat} {call : Stopping}, r.stops[n]? = some call → call ≠ .fresh →
      call ≠ .unused → r.supervisor.stopped = true := by
    intro n call made begun used
    cases flag : r.supervisor.stopped with
    | true => rfl
    | false =>
      rcases quiet.waiting flag call (List.mem_of_getElem? made) with c | c
      · exact absurd c begun
      · exact absurd c used
  cases change_of_act? ht with
  | started => exact .inl isOver
  | stopped =>
    rcases List.mem_append.1 isOver with isOver | isOver
    · exact .inl isOver
    · cases List.mem_singleton.1 isOver
  | start made free goes => exact .inl isOver
  | @stop n call next s made free goes =>
    refine (List.mem_or_eq_of_mem_set isOver).imp_right ?_
    rintro rfl
    cases goes
    exact ⟨rfl, stopped made (by simp) (by simp)⟩
  | @giveUp n call next s made drops =>
    refine (List.mem_or_eq_of_mem_set isOver).imp_right ?_
    rintro rfl
    cases drops
    exact ⟨rfl, stopped made (by simp) (by simp)⟩
  | fleet kind act => exact .inl isOver

theorem Closing.act (h : r.Closing) (quiet : r.Quiet) (wired : r.fleet.Wired)
    (ht : r.act? a = some t) : t.Closing := by
  refine ⟨fun stopped => ?_, fun isOver => ?_⟩
  · cases flag : r.supervisor.stopped with
    | true => exact signal_of_act? wired (h.signal flag) ht
    | false => exact .inr (flagged_of_act? flag ht stopped quiet)
  · rcases closed_of_act? quiet ht isOver with before | now
    · obtain ⟨closed, stopped⟩ := h.closed before
      exact ⟨ownSender_of_act? closed ht, stopped_of_act? stopped ht⟩
    · exact now

/-- In every state that racing calls can reach. -/
theorem closing_of_run? {sources : List String} {policy : Policy} {network : Network}
    {counting : Bool} {supervisor : Supervisor}
    (created : Supervisor.create sources policy network counting = .ok supervisor)
    (ran : run? { supervisor } acts = some t) : t.Closing := by
  refine induction_of_run? (P := fun _ r => r.Closing) ?_ (fun {xs a r u} before h act => ?_) ran
  · obtain ⟨-, -, rfl⟩ := Supervisor.create_eq_ok created
    exact ⟨fun c => (by cases c), fun c => (by cases c)⟩
  · exact h.act (quiet_of_run? created before) (manned_of_run? created before).wired act

/-! ## When nothing can go on -/

/-- When nothing that has begun can go on and a call of stop is over, every worker has ended. -/
theorem ended_of_waits (closing : r.Closing) (wired : r.fleet.Wired) (waits : r.waits = true)
    (isOver : .finished ∈ r.stops) : ∀ w ∈ r.fleet.workers, w.ended = true := by
  simp only [Race.waits, Bool.and_eq_true, List.all_eq_true, List.mem_range, Bool.or_eq_true,
    decide_eq_true_eq, Option.isNone_iff_eq_none, Bool.not_eq_true'] at waits
  obtain ⟨⟨-, stops⟩, workers⟩ := waits
  have signalled : r.fleet.Signalled := by
    refine (closing.signal (closing.closed isOver).2).resolve_right fun flagged => ?_
    obtain ⟨n, made⟩ := List.getElem?_of_mem flagged
    rcases stops n (List.getElem?_eq_some_iff.1 made).1 with fresh | stuck
    · rw [made] at fresh
      cases fresh
    · simp [act?, made, Stopping.locks, Stopping.next?] at stuck
  intro w hw
  by_contra going
  obtain ⟨slot, hslot⟩ := List.getElem?_of_mem hw
  have can := Worker.isSome_step? (wired.each slot w hslot) signalled (by simpa using going)
  rw [Fleet.canStep, List.any_eq_false] at workers
  exact workers w hw can

/-- What is queued can be received, message by message. -/
theorem exists_run?_receive (r : Race) :
    ∃ u, r.run? (List.replicate r.fleet.hub.bus.queue.length .receive) = some u ∧
      u.fleet.hub.bus.queue = [] := by
  generalize hq : r.fleet.hub.bus.queue = queue
  induction queue generalizing r with
  | nil => exact ⟨r, rfl, hq⟩
  | cons m rest ih =>
    obtain ⟨bus, taken⟩ : ∃ bus, r.fleet.hub.bus.take? = some (m, bus) := by simp [Bus.take?, hq]
    have queue : bus.queue = rest := by simpa [hq] using (Bus.queue_of_take? taken).symm
    let t : Race := { r with supervisor := { r.supervisor with
      fleet := { r.fleet with hub := { r.fleet.hub with bus } } } }
    have act : r.act? .receive = some t := by
      simp [act?, actOfFleet?, Fleet.act?, Fleet.receive?, taken, t]
    obtain ⟨u, ran, empty⟩ := ih t queue
    refine ⟨u, ?_, empty⟩
    rw [List.length_cons, List.replicate_succ, run?_cons act, ran]

theorem ownSender_of_run? (closed : r.fleet.hub.bus.ownSender = false)
    (ran : r.run? acts = some t) : t.fleet.hub.bus.ownSender = false :=
  induction_of_run? (P := fun _ t => t.fleet.hub.bus.ownSender = false) closed
    (fun _ closed act => ownSender_of_act? closed act) ran

/-- When the flag is set, the bus is closed and every worker has ended, nothing is left but to
receive what is queued. -/
theorem Course.after_of_ended {spawned : List Nat} (course : Course r spawned) (quiet : r.Quiet)
    (stopped : r.supervisor.stopped = true) (closed : r.fleet.hub.bus.ownSender = false)
    (ended : ∀ w ∈ r.fleet.workers, w.ended = true) (ran : r.run? acts = some t) :
    t.fleet.workers = r.fleet.workers ∧
      r.received acts ++ t.fleet.hub.bus.queue = r.fleet.hub.bus.queue ∧
      (t.fleet.hub.bus.queue = [] → t.fleet.atEnd = true) := by
  obtain ⟨stopped, ⟨_, course⟩, -, own, keep, went, got⟩ :=
    course.run_of_stopped quiet stopped ran
  obtain ⟨workers, queue⟩ := Fleet.drained_of_run? keep ended went
  refine ⟨workers, got ▸ queue, fun empty => Fleet.atEnd_iff.2 ⟨empty, ?_, ?_, ?_⟩⟩
  · exact ownSender_of_run? closed ran
  · exact (course.of_free (course.free_of_stopped stopped)).1
  · rw [workers]
    exact ended

/-- **The stream ends when every worker has ended.**  However calls of start and of stop race and
are given up.  A receive sees the end only when every worker has ended and every message that was
put on the bus was received; then nobody is started any more and the end is there for good.  When a
call of stop that has run is over or was given up, and nothing that has begun can go on, every
worker has ended and the bus has given up its own sender; what is queued can be received, and after
that the end is seen, whatever happens. -/
theorem ends_of_race {sources : List String} {policy : Policy} {network : Network}
    {counting : Bool} {supervisor : Supervisor}
    (created : Supervisor.create sources policy network counting = .ok supervisor)
    (ran : run? { supervisor } acts = some r) :
    (r.fleet.atEnd = true →
      (∀ w ∈ r.fleet.workers, w.ended = true) ∧
      received { supervisor } acts = r.fleet.delivered.map Prod.snd ∧
      ∀ more u, r.run? more = some u →
        u.fleet.workers = r.fleet.workers ∧ u.fleet.atEnd = true ∧ r.received more = []) ∧
    (r.waits = true → .finished ∈ r.stops →
      (∀ w ∈ r.fleet.workers, w.ended = true) ∧ r.fleet.hub.bus.ownSender = false ∧
      (∃ u, r.run? (List.replicate r.fleet.hub.bus.queue.length .receive) = some u ∧
        r.received (List.replicate r.fleet.hub.bus.queue.length .receive) =
          r.fleet.hub.bus.queue ∧ u.fleet.atEnd = true) ∧
      ∀ more u, r.run? more = some u →
        u.fleet.workers = r.fleet.workers ∧ u.fleet.hub.bus.ownSender = false ∧
        r.received more ++ u.fleet.hub.bus.queue = r.fleet.hub.bus.queue ∧
        (u.fleet.hub.bus.queue = [] → u.fleet.atEnd = true)) := by
  have quiet := quiet_of_run? created ran
  have course := course_of_run? created ran
  have manned := manned_of_run? created ran
  refine ⟨fun silent => ?_, fun waits isOver => ?_⟩
  · obtain ⟨empty, own, -, ended⟩ := Fleet.atEnd_iff.1 silent
    have stopped : r.supervisor.stopped = true := by
      by_contra unstopped
      rw [quiet.sender (by simpa using unstopped)] at own
      cases own
    have all := manned.account.queue manned.receiving
    rw [empty, List.append_nil] at all
    refine ⟨ended, all, fun more u later => ?_⟩
    obtain ⟨workers, queue, silent⟩ := course.after_of_ended quiet stopped own ended later
    rw [empty, List.append_eq_nil_iff] at queue
    exact ⟨workers, silent queue.2, queue.1⟩
  · have closing := closing_of_run? created ran
    obtain ⟨own, stopped⟩ := closing.closed isOver
    have ended := ended_of_waits closing manned.wired waits isOver
    have after := fun more u (later : r.run? more = some u) =>
      course.after_of_ended quiet stopped own ended later
    refine ⟨ended, own, ?_, fun more u later => ?_⟩
    · obtain ⟨u, received, empty⟩ := r.exists_run?_receive
      obtain ⟨-, queue, silent⟩ := after _ u received
      rw [empty, List.append_nil] at queue
      exact ⟨u, received, queue, silent empty⟩
    · obtain ⟨workers, queue, silent⟩ := after more u later
      exact ⟨workers, ownSender_of_run? own later, queue, silent⟩

/-- One source, whose peer accepts and sends one byte. -/
def talking : Supervisor where
  sources := ["feed:1"]
  fleet := Fleet.create {} ⟨[("feed:1", [.settles 0 (.connected [(0, .sends [1])] none)])]⟩
    { capacity := 1000 } false false

/-- The worker puts the byte on the bus; a call of stop signals it and is given up while it waits
for it; then the worker ends. -/
def abandoned : List Act :=
  [.start, .goStart 0, .goStart 0, .goStart 0, .goStart 0, .step 0, .step 0, .step 0,
    .stop, .goStop 0, .goStop 0, .goStop 0, .goStop 0, .giveUp 0, .step 0, .step 0]

/-- The byte can still be received, and then the stream ends. -/
theorem ends_of_race_abandoned :
    ∃ r u, Supervisor.create talking.sources {} talking.fleet.hub.network false = .ok talking ∧
      run? { supervisor := talking } abandoned = some r ∧ r.waits = true ∧
      .finished ∈ r.stops ∧ (∀ w ∈ r.fleet.workers, w.ended = true) ∧
      r.run? [.receive] = some u ∧ r.received [.receive] = [⟨"feed:1", [1], 0⟩] ∧
      u.fleet.atEnd = true := by
  have outcome : (run? { supervisor := talking } abandoned).map (fun r =>
      (r.waits, r.stops, r.fleet.hub.bus.queue)) =
        some (true, [.finished], [⟨"feed:1", [1], 0⟩]) := by decide +kernel
  obtain ⟨r, ran, same⟩ := Option.map_eq_some_iff.1 outcome
  simp only [Prod.mk.injEq] at same
  obtain ⟨waits, stops, queue⟩ := same
  have created : Supervisor.create talking.sources {} talking.fleet.hub.network false =
    .ok talking := rfl
  have isOver : .finished ∈ r.stops := by simp [stops]
  obtain ⟨ended, -, ⟨u, received, got, silent⟩, -⟩ := (ends_of_race created ran).2 waits isOver
  rw [queue] at received got
  exact ⟨r, u, created, ran, waits, isOver, ended, received, got, silent⟩

end FeedCapture.Race
