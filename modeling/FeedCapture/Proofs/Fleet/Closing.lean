import FeedCapture.Proofs.Fleet.Halting
import FeedCapture.Proofs.Fleet.Outage
import FeedCapture.Proofs.Fleet.Receiving
import FeedCapture.Proofs.Fleet.Totals
import FeedCapture.Proofs.Worker.Closing

/-!
# Closing all connections of a fleet

When all connections are closed while every worker waits, each worker with a connection leaves it at
that instant, whatever it waits for, and dials again at the same instant.  The workers without a
connection, the queue and the stop token are left alone.

## Main definitions

* `Fleet.Resting` — a worker that was not disturbed takes its next step when its time has come

The main statement is `closeAll_of_run`.
-/

namespace FeedCapture.Fleet

open Worker

variable {policy : Policy} {network : Network} {bus : Bus Nat} {counting spare : Bool}
  {addrs : List String} {start f g h : Fleet} {acts more : List Act} {slot : Nat}
  {w : Worker} {got : List Message}

/-! ## The workers with a connection -/

/-- A worker whose connection is closed leaves it and dials again, before the clock moves on. -/
theorem severed_of_run (running : g.Running) (here : g.workers[slot]? = some w)
    {link : Link} (open_ : w.phase.open? = some link) (closed : g.hub.tokens.Fired link.close)
    (still : .stop ∉ more) (punctual : ∀ t, .lag t ∉ more) (ran : g.run? more = some h) :
    ∃ v since, h.workers[slot]? = some v ∧ h.log slot = since ++ g.log slot ∧
      Severed g.hub.now w h.hub v since := by
  induction more using List.reverseRecOn generalizing h with
  | nil =>
    obtain rfl : g = h := Option.some.inj ran
    exact ⟨w, [], here, rfl, .pending rfl rfl open_ closed⟩
  | append_singleton more a ih =>
    obtain ⟨f, ran, ha⟩ := exists_of_run?_concat ran
    simp only [List.mem_append, List.mem_singleton, not_or, forall_and] at still punctual
    obtain ⟨v, since, here, log, severed⟩ := ih still.1 punctual.1 ran
    have running := running.run still.1 ran
    by_cases own : a = .step slot
    · subst own
      obtain ⟨v', s, worker, step, rfl⟩ := exists_of_stepWorker? ha
      obtain rfl : v = v' := Option.some.inj (here.symm.trans worker)
      refine ⟨s.worker, _, workers_afterStep_self s worker, ?_,
        severed.transition (transition_of_step? step) (running.wired.each slot v here)
          running.going⟩
      rw [log_afterStep_self, log, List.append_assoc]
      rfl
    · obtain ⟨worker, same⟩ := unchanged_of_act? ha own
      refine ⟨v, since, worker.trans here, same.trans log, ?_⟩
      have tokens := extends_of_act? running.wired ha
      rcases now_of_act? ha with now | ⟨t, rfl | rfl, now⟩
      · exact severed.of_others now tokens
      · simp only [act?, Option.ite_none_right_eq_some] at ha
        obtain ⟨later, rfl⟩ := severed.exists_of_waits (waits_of_canPass ha.1 here).1
        exact .dialed later
      · exact absurd rfl (punctual.2 t)

/-! ## The workers without a connection -/

/-- A worker that was not disturbed: it still waits, while its time has not passed, or it took its
next step exactly at that time. -/
inductive Resting (g : Fleet) (more : List Act) (h : Fleet) (slot : Nat) (w : Worker) : Prop
  | waiting (here : h.workers[slot]? = some w) (log : h.log slot = g.log slot)
      (early : ∀ wake, w.wakeAt = some wake → h.hub.now ≤ wake)
  | woken (m : Moment g more h slot) (same : m.worker = w)
      (log : m.fleet.log slot = g.log slot) (due : w.wakeAt = some m.fleet.hub.now)

/-- A worker without a connection is not disturbed by the others. -/
theorem resting_of_run (running : g.Running) (here : g.workers[slot]? = some w)
    (shut : w.isConnected = false) (waited : w.phase ≠ .ready)
    (early : ∀ wake, w.wakeAt = some wake → g.hub.now ≤ wake) (still : .stop ∉ more)
    (punctual : ∀ t, .lag t ∉ more) (ran : g.run? more = some h) : Resting g more h slot w := by
  induction more using List.reverseRecOn generalizing h with
  | nil =>
    obtain rfl : g = h := Option.some.inj ran
    exact .waiting here rfl early
  | append_singleton more a ih =>
    obtain ⟨f, before, ha⟩ := exists_of_run?_concat ran
    simp only [List.mem_append, List.mem_singleton, not_or, forall_and] at still punctual
    cases ih still.1 punctual.1 before with
    | woken m same log due => exact .woken (m.snoc ha) same log due
    | waiting here log early =>
      by_cases own : a = .step slot
      · subst own
        obtain ⟨v, s, worker, step, rfl⟩ := exists_of_stepWorker? ha
        obtain rfl : w = v := Option.some.inj (here.symm.trans worker)
        have step := transition_of_step? step
        obtain ⟨wake, wakes, passed⟩ :=
          wakes_of_transition step (running.run still.1 before).going shut waited
        let m : Moment g (more ++ [.step slot]) (f.afterStep slot s) slot :=
          ⟨more, [], f, w, s, rfl, before, worker, step, rfl⟩
        have due : f.hub.now = wake := Nat.le_antisymm (early wake wakes) passed
        exact .woken m rfl log (wakes.trans (congrArg some due.symm))
      · obtain ⟨worker, same⟩ := unchanged_of_act? ha own
        refine .waiting (worker.trans here) (same.trans log) fun wake wakes => ?_
        rcases now_of_act? ha with now | ⟨t, rfl | rfl, now⟩
        · exact now ▸ early wake wakes
        · simp only [act?, Option.ite_none_right_eq_some] at ha
          exact now ▸ (waits_of_canPass ha.1 here).2.2 wake wakes
        · exact absurd rfl (punctual.2 t)

/-! ## The queue -/

/-- Who has given up receiving does not begin again. -/
theorem receiving_of_receiving (ran : g.run? more = some h) (receiving : h.hub.bus.receiving = true) :
    g.hub.bus.receiving = true := by
  by_contra gone
  have gone : h.hub.bus.receiving = false := by
    refine preserved_of_run? (P := fun f => f.hub.bus.receiving = false) (fun {f g a} gone ha => ?_)
      (Bool.eq_false_iff.2 gone) ran
    by_cases given : a = .dropReceivers
    · subst given
      cases ha
      rfl
    · exact (receiving_of_act? given ha).trans gone
  cases receiving.symm.trans gone

/-- What is queued is received first, in order, and followed by what is put on the bus since. -/
theorem Passed.exists_fresh (passed : g.Passed got) (ran : g.run? more = some h)
    (receiving : h.hub.bus.receiving = true) :
    ∃ fresh, h.delivered.map Prod.snd = g.delivered.map Prod.snd ++ fresh ∧
      g.received more ++ h.hub.bus.queue = g.hub.bus.queue ++ fresh := by
  have grown : g.delivered.map Prod.snd <+: h.delivered.map Prod.snd :=
    ((List.reverse_prefix.2 (past_suffix_of_run? ran)).filterMap _).map _
  obtain ⟨fresh, sent⟩ := grown
  have before := passed (receiving_of_receiving ran receiving)
  have after := passed.run ran receiving
  have joined : got ++ (g.received more ++ h.hub.bus.queue) = got ++ (g.hub.bus.queue ++ fresh) := by
    rw [← List.append_assoc, after, ← sent, ← before, List.append_assoc]
  exact ⟨fresh, sent.symm, List.append_cancel_left joined⟩

/-! ## Closing -/

/-- Closing all connections cancels the token of each of them. -/
theorem Wired.fired_closeAll (wired : f.Wired) (here : f.workers[slot]? = some w) {link : Link}
    (open_ : w.phase.open? = some link) : f.closeAll.1.hub.tokens.Fired link.close := by
  have found : f.hub.registry.get? w.key = some link.close := by
    rw [(wired.each slot w here).entry, open_]
    rfl
  obtain ⟨early, late, entries, -⟩ := List.lookup_eq_some_iff.1 found
  obtain ⟨-, own, node⟩ := (wired.each slot w here).close link open_
  have mem : (w.key, link.close) ∈ f.hub.registry.entries := by simp [entries]
  exact Registry.fired_closeAll mem (Array.getElem?_eq_some_iff.1 node).1

/-- **Closing.**  When all connections of a fleet are closed while every worker waits and the fleet
was not told to stop, as many are counted as workers have one, and nothing but tokens has changed.
Whatever happens then, unless the fleet is told to stop: the stop token is not cancelled, and what
was queued is received in order, before what is put on the bus since.  A worker that had a connection
leaves it as closed, drops no message but the one that waited for room, and dials again, all that at
the instant of the closing and before the clock moves on; its outage began then.  A worker that had
none waits until its time has come, and goes on exactly then. -/
theorem closeAll_of_run {capacity : Nat} (built : Bus.withCapacity Nat capacity = .ok bus)
    (new : start = (create policy network bus counting spare).spawn addrs)
    (ran : start.run? acts = some f) (waits : f.canStep = false)
    (going : f.hub.stopping = false) :
    f.closeAll.2 = f.workers.countP Worker.isConnected ∧
    f.closeAll.1 = { f with hub := { f.hub with tokens := f.closeAll.1.hub.tokens } } ∧
    ∀ more h, .stop ∉ more → (∀ t, .lag t ∉ more) → f.closeAll.1.run? more = some h →
      h.hub.stopping = false ∧
      (h.hub.bus.receiving = true → ∃ fresh,
        h.delivered.map Prod.snd = f.delivered.map Prod.snd ++ fresh ∧
          f.closeAll.1.received more ++ h.hub.bus.queue = f.hub.bus.queue ++ fresh) ∧
      ∀ slot w, f.workers[slot]? = some w →
        (w.isConnected = true → ∃ v since, h.workers[slot]? = some v ∧
          h.log slot = since ++ f.log slot ∧ Severed f.hub.now w h.hub v since ∧
          (h.canStep = false → ∃ later, since = later ++ (f.hub.now, .dialed) ::
            (f.hub.now, .link .disconnected .dialing) :: logged f.hub.now (parting w)) ∧
          ∀ later, since = later ++ logged f.hub.now (parting w) →
            (∀ x ∈ later, x.2.turns = false) → v.outage.downSince = some f.hub.now) ∧
        (w.isConnected = false → Resting f.closeAll.1 more h slot w) := by
  obtain ⟨wired, rooted⟩ := wired_of_run new ran
  obtain ⟨rooted, same⟩ := rooted.act (a := .closeAll) wired rfl
  have running : f.closeAll.1.Running := ⟨wired.closedAll, rooted, (same (by simp)).trans going⟩
  have passed : f.Passed (start.received acts) := by
    have empty : start.Passed [] := by
      obtain rfl := Bus.eq_of_withCapacity built
      subst new
      exact fun _ => rfl
    simpa using empty.run ran
  refine ⟨wired.size_eq, rfl, ?_⟩
  intro more h still punctual ran'
  refine ⟨(running.run still ran').going, ?_, ?_⟩
  · intro receiving
    -- closing changes neither the queue nor what was put on the bus
    have passed : f.closeAll.1.Passed (start.received acts) := passed
    exact passed.exists_fresh ran' receiving
  · intro slot w here
    constructor
    · intro connected
      obtain ⟨link, open_⟩ := Option.ne_none_iff_exists'.1 ((isConnected_iff w).1 connected)
      obtain ⟨v, since, here', log, severed⟩ := severed_of_run running here open_
        (wired.fired_closeAll here open_) still punctual ran'
      have log : h.log slot = since ++ f.log slot := log
      refine ⟨v, since, here', log, severed, ?_, ?_⟩
      · intro still
        exact severed.exists_of_waits (waits_of_canStep still here')
      · intro later parts calm
        have reached : start.run? (acts ++ .closeAll :: more) = some h := by
          rw [run?_append, ran]
          exact ran'
        rw [(tracked_of_run new reached slot v here').since, log, parts, List.append_assoc,
          lostAt?_append calm, lostAt?_parting]
    · intro shut
      have waits := waits_of_canStep waits here
      have waited : w.phase ≠ .ready := fun phase => by simp [step?, phase] at waits
      refine resting_of_run running here shut waited ?_ still punctual ran'
      intro wake wakes
      exact Nat.le_of_lt (lt_of_wakeAt waits wakes)

/-- One worker waits for something to read, one for room on the bus, and the dial of one fails. -/
def mixed : Fleet :=
  (create {}
    ⟨[("feed:1", [.settles 0 (.connected [] none), .hangs]),
      ("feed:2", [.settles 0 (.connected [(0, .sends [1]), (0, .sends [2])] none), .hangs])]⟩
    { capacity := 1 } true false).spawn ["feed:1", "feed:2", "feed:3"]

/-- All workers go on until they wait, and time passes. -/
def mixedActs : List Act :=
  [.step 0, .step 0, .step 1, .step 1, .step 1, .step 1, .step 2, .step 2, .pass 1]

/-- Both workers with a connection leave it and dial again, the one after the other. -/
def mixedRedials : List Act := [.step 1, .step 0, .step 0, .step 1]

/-- Two connections are closed.  The worker that waited for room drops its message, dials at the
instant of the closing, and takes its outage to have begun then; the one that pauses is left alone. -/
theorem closeAll_of_run_mixed :
    ∃ f h w v, mixed.run? mixedActs = some f ∧ f.canStep = false ∧ f.hub.stopping = false ∧
      Bus.withCapacity Nat 1 = .ok { capacity := 1 } ∧ f.closeAll.2 = 2 ∧
      f.closeAll.1.run? mixedRedials = some h ∧ f.workers[1]? = some w ∧
      (∃ m, w.phase.inHand = some m) ∧ h.workers[1]? = some v ∧
      (∃ later, h.log 1 = (later ++ (1, .dialed) :: (1, .link .disconnected .dialing) ::
        logged 1 (parting w)) ++ f.log 1) ∧
      ∃ u, f.workers[2]? = some u ∧ Resting f.closeAll.1 mixedRedials h 2 u := by
  have told : (mixed.run? mixedActs).map (fun f =>
      (f.hub.now, f.canStep, f.hub.stopping, f.workers.countP Worker.isConnected)) =
      some (1, false, false, 2) := by decide +kernel
  have kinds : (mixed.run? mixedActs).map (fun f =>
      [f.workers[1]?, f.workers[2]?].map
        (Option.map fun w => (w.isConnected, w.phase.inHand.isSome))) =
      some [some (true, true), some (false, false)] := by decide +kernel
  have redials : ((mixed.run? mixedActs).bind fun f =>
      f.closeAll.1.run? mixedRedials).map canStep = some false := by decide +kernel
  obtain ⟨f, ran, state⟩ := Option.map_eq_some_iff.1 told
  rw [ran] at kinds redials
  simp only [Prod.mk.injEq] at state
  obtain ⟨now, waits, going, connections⟩ := state
  simp only [Option.map_some, List.map_cons, List.map_nil, Option.some.injEq, List.cons.injEq,
    and_true] at kinds
  obtain ⟨w, here, parked⟩ := Option.map_eq_some_iff.1 kinds.1
  obtain ⟨u, here', pauses⟩ := Option.map_eq_some_iff.1 kinds.2
  obtain ⟨connected, hand⟩ := Prod.mk.inj parked
  obtain ⟨h, ran', waits'⟩ := Option.map_eq_some_iff.1 redials
  have built : Bus.withCapacity Nat 1 = .ok { capacity := 1 } := rfl
  obtain ⟨count, -, after⟩ := closeAll_of_run built rfl ran waits going
  obtain ⟨-, -, each⟩ := after mixedRedials h (by simp [mixedRedials]) (by simp [mixedRedials]) ran'
  obtain ⟨v, since, there, log, -, dialed, -⟩ := (each 1 w here).1 connected
  obtain ⟨later, rfl⟩ := dialed waits'
  rw [now] at log
  exact ⟨f, h, w, v, ran, waits, going, built, count.trans connections, ran', here,
    Option.isSome_iff_exists.1 hand, there, ⟨later, log⟩, u, here',
    (each 2 u here').2 (Prod.mk.inj pauses).1⟩

end FeedCapture.Fleet
