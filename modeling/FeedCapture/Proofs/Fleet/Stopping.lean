import FeedCapture.Proofs.Fleet.Fidelity
import FeedCapture.Proofs.Fleet.Wiring
import Mathlib.Algebra.Order.Ring.Nat

/-!
# Fleets that stop

Once the stop token is cancelled, every worker that has not ended can go on, whatever it waits for:
it leaves its connection, if it has one, and stops.  It does nothing else, so the fleet is done
after two steps of each worker at most.

## Main definitions

* `Worker.Event.isWork` — the event of a worker that dials, reads or puts a message on the bus
* `Fleet.leftToStop` — how many steps the workers still take before all of them have ended
* `Fleet.Winding` — what stopping workers have done since some moment
-/

namespace FeedCapture

namespace Worker

/-- The worker dials, gets a connection, reads, or puts a message on the bus. -/
def Event.isWork : Event → Bool
  | .dialed => true
  | .dialEnded _ => true
  | .connected _ => true
  | .read _ => true
  | .delivered _ => true
  | _ => false

/-- The reason of a breakdown. -/
def Phase.crash? : Phase → Option String
  | .crashed reason => some reason
  | _ => none

/-- How many steps a worker takes before it has ended, once it is to stop. -/
def Phase.leftToStop : Phase → Nat
  | .reading _ _ => 2
  | .delivering _ _ => 2
  | .stopped => 0
  | .crashed _ => 0
  | _ => 1

variable {h : Hub} {w : Worker}

theorem leftToStop_eq_zero_iff : w.phase.leftToStop = 0 ↔ w.ended = true := by
  cases phase : w.phase <;> simp [Phase.leftToStop, ended, phase]

theorem leftToStop_le_two (phase : Phase) : phase.leftToStop ≤ 2 := by
  cases phase <;> simp [Phase.leftToStop]

/-- A worker whose link is not stopped has not broken down. -/
theorem crash?_of_link (going : w.phase.link ≠ .stopped) : w.phase.crash? = none := by
  cases phase : w.phase with
  | crashed reason =>
    rw [phase] at going
    exact absurd rfl going
  | _ => rfl

theorem isWork_linkEvents (source target : LinkState) :
    ∀ e ∈ linkEvents source target, e.isWork = false := by
  intro e he
  unfold linkEvents at he
  split at he
  · cases he
  · rw [List.mem_singleton.1 he]
    rfl

theorem isWork_stop (h : Hub) (w : Worker) : ∀ e ∈ (stop h w).events, e.isWork = false := by
  intro e he
  rcases List.mem_append.1 he with he | he
  · exact isWork_linkEvents _ _ e he
  · rw [List.mem_singleton.1 he]
    rfl

theorem isWork_leave_closed (h : Hub) (w : Worker) :
    ∀ e ∈ (leave h w .closed).events, e.isWork = false := by
  intro e he
  have parts : (leave h w .closed).events = (h.registry.unregister w.key).2.map Event.registry ++
      linkEvents w.phase.link .disconnected ++ [.exited .closed] := rfl
  simp only [parts, List.mem_append, List.mem_map, List.mem_singleton] at he
  rcases he with (⟨notice, -, rfl⟩ | he) | rfl
  · rfl
  · exact isWork_linkEvents _ _ e he
  · rfl

/-- The connection of a worker is closed once the stop token is cancelled. -/
theorem Wired.isCancelled (wired : w.Wired h) (fired : h.tokens.Fired h.stop) {link : Link}
    (hl : w.phase.open? = some link) : h.tokens.isCancelled link.close = true :=
  TokenTree.isCancelled_of_childOf (wired.close link hl) fired

/-- A worker that is to stop and has not ended can go on. -/
theorem isSome_step? (wired : w.Wired h) (fired : h.tokens.Fired h.stop)
    (going : w.ended = false) : (w.step? h).isSome = true := by
  have stopping : h.stopping = true := TokenTree.isCancelled_of_fired fired
  cases phase : w.phase with
  | ready => simp [step?, phase]
  | dialing due outcome => simp [step?, phase, stopping]
  | pausing until_ => simp [step?, phase, stopping]
  | reading link deadline =>
    have hl : w.phase.open? = some link := by rw [phase]; rfl
    have close := wired.isCancelled fired hl
    simp [step?, phase, close]
  | delivering link m =>
    have hl : w.phase.open? = some link := by rw [phase]; rfl
    have close := wired.isCancelled fired hl
    simp [step?, phase, close]
  | stopped => simp [ended, phase] at going
  | crashed reason => simp [ended, phase] at going

/-- A worker that is to stop comes closer to its end with every step, and does no work. -/
theorem stops_of_transition {s : Step} (step : Transition h w s) (wired : w.Wired h)
    (fired : h.tokens.Fired h.stop) :
    s.worker.phase.leftToStop + 1 = w.phase.leftToStop ∧
      (∀ e ∈ s.events, e.isWork = false) ∧ s.worker.phase.crash? = none := by
  have stopping : h.stopping = true := TokenTree.isCancelled_of_fired fired
  -- neither the stop token nor that of the connection lets the worker go on as before
  have resting : ∀ {p : Prop}, h.stopping = false → p := by
    intro p going
    rw [stopping] at going
    cases going
  have open_ : ∀ {link : Link} {p : Prop}, w.phase.open? = some link →
      h.tokens.isCancelled link.close = false → p := by
    intro link p hl going
    rw [wired.isCancelled fired hl] at going
    cases going
  cases step with
  | halt idle _ =>
    refine ⟨?_, isWork_stop h w, rfl⟩
    rcases idle with phase | ⟨due, outcome, phase⟩ | ⟨until_, phase⟩ <;> rw [phase] <;> rfl
  | closed phase close =>
    refine ⟨?_, isWork_leave_closed h w, rfl⟩
    rw [phase]
    rfl
  | givenUp phase close =>
    refine ⟨?_, List.forall_mem_cons.2 ⟨rfl, isWork_leave_closed _ w⟩, rfl⟩
    rw [phase]
    rfl
  | dial phase going => exact resting going
  | refused phase going passed => exact resting going
  | dialBroke phase going passed => exact resting going
  | connected phase going passed => exact resting going
  | retry phase going passed => exact resting going
  | eof phase going => exact open_ (by rw [phase]; rfl) going
  | failed phase going => exact open_ (by rw [phase]; rfl) going
  | readBroke phase going => exact open_ (by rw [phase]; rfl) going
  | queued phase going => exact open_ (by rw [phase]; rfl) going
  | parked phase going => exact open_ (by rw [phase]; rfl) going
  | unwanted phase going => exact open_ (by rw [phase]; rfl) going
  | idle phase going => exact open_ (by rw [phase]; rfl) going
  | silent phase going => exact open_ (by rw [phase]; rfl) going
  | abandoned phase going => exact open_ (by rw [phase]; rfl) going
  | handedOver phase going => exact open_ (by rw [phase]; rfl) going

/-- No work puts no message on the bus. -/
theorem messages_of_idle {s : Step} (idle : ∀ e ∈ s.events, e.isWork = false) :
    s.messages = [] := by
  rw [Step.messages, List.filterMap_eq_nil_iff]
  intro e he
  have := idle e he
  cases e <;> first | rfl | cases this

end Worker

namespace Fleet

open Worker

/-- The stop token was cancelled. -/
def Signalled (f : Fleet) : Prop := f.hub.tokens.Fired f.hub.stop

/-- A signal to stop is never taken back. -/
theorem Signalled.act {f g : Fleet} {a : Act} (h : f.Signalled) (wired : f.Wired)
    (ha : f.act? a = some g) : g.Signalled := by
  cases change_of_act? ha with
  | @step slot w s worker step =>
    have mild := (wired_of_transition (transition_of_step? step) (wired.each slot w worker)
      wired.stop).2
    show s.hub.tokens.Fired s.hub.stop
    rw [mild.stop]
    exact mild.tokens.fired h
  | stop => exact (TokenTree.Extends.cancel _ _).fired h
  | closeAll => exact (Registry.extends_closeAll _ _).fired h
  | _ => exact h

/-- How many steps the workers take before all of them have ended, once they are to stop. -/
def leftToStop (f : Fleet) : Nat := (f.workers.map fun w => w.phase.leftToStop).sum

theorem leftToStop_le (f : Fleet) : f.leftToStop ≤ 2 * f.workers.length := by
  unfold leftToStop
  induction f.workers with
  | nil => simp
  | cons w ws ih =>
    have := leftToStop_le_two w.phase
    simp only [List.map_cons, List.sum_cons, List.length_cons]
    omega

/-- All workers have ended exactly when they take no more steps. -/
theorem leftToStop_eq_zero_iff (f : Fleet) :
    f.leftToStop = 0 ↔ ∀ w ∈ f.workers, w.ended = true := by
  unfold leftToStop
  induction f.workers with
  | nil => simp
  | cons w ws ih => simp [ih, Worker.leftToStop_eq_zero_iff]

/-- A worker that changes changes a sum over the workers by as much. -/
theorem sum_map_set {M : Type} [AddCommMonoid M] (count : Worker → M) {ws : List Worker}
    {slot : Nat} {w : Worker} (hw : ws[slot]? = some w) (v : Worker) :
    ((ws.set slot v).map count).sum + count w = (ws.map count).sum + count v := by
  induction ws generalizing slot with
  | nil => cases hw
  | cons u us ih =>
    cases slot with
    | zero =>
      obtain rfl : u = w := by simpa using hw
      simp only [List.set_cons_zero, List.map_cons, List.sum_cons]
      ac_rfl
    | succ slot =>
      simp only [List.set_cons_succ, List.map_cons, List.sum_cons]
      rw [add_assoc, ih hw, add_assoc]

/-- What stopping workers have done since some moment: no work, so that the queue is as it was but
for what was received; and who had ended by then is as it was. -/
structure Winding (f g : Fleet) (steps : Nat) (got : List Message) : Prop where
  wired : g.Wired
  signalled : g.Signalled
  idle : ∃ new, g.past = new ++ f.past ∧ ∀ e ∈ new, e.2.2.isWork = false
  queue : f.hub.bus.queue = got ++ g.hub.bus.queue
  budget : steps + g.leftToStop = f.leftToStop
  length : g.workers.length = f.workers.length
  done : ∀ (slot : Nat) (w : Worker), f.workers[slot]? = some w → w.ended = true →
    g.workers[slot]? = some w
  /-- Nobody breaks down on the way. -/
  sound : ∀ (slot : Nat) (w : Worker), f.workers[slot]? = some w → w.ended = false →
    ∃ v : Worker, g.workers[slot]? = some v ∧ v.phase.crash? = none

namespace Winding

variable {f g g' : Fleet} {steps : Nat} {got : List Message}

/-- Nothing has been done yet. -/
theorem start (wired : f.Wired) (signalled : f.Signalled) : Winding f f 0 [] where
  wired := wired
  signalled := signalled
  idle := ⟨[], rfl, fun _ he => by cases he⟩
  queue := rfl
  budget := Nat.zero_add _
  length := rfl
  done _ _ hw _ := hw
  sound slot w hw going := ⟨w, hw, by cases h : w.phase <;> simp_all [ended, Phase.crash?]⟩

/-- A step of a worker brings the end closer. -/
theorem step {slot : Nat} (h : Winding f g steps got) (hg : g.stepWorker? slot = some g') :
    Winding f g' (steps + 1) got := by
  have wired' := h.wired.stepWorker? hg
  obtain ⟨w, s, hw, hs, rfl⟩ := exists_of_stepWorker? hg
  have step := transition_of_step? hs
  obtain ⟨closer, idle, sound⟩ := stops_of_transition step (h.wired.each slot w hw) h.signalled
  have kept := kept_of_transition step
  have mild := (wired_of_transition step (h.wired.each slot w hw) h.wired.stop).2
  have going : w.ended = false := by
    cases ended : w.ended with
    | false => rfl
    | true =>
      have := Worker.leftToStop_eq_zero_iff.2 ended
      omega
  refine ⟨wired', ?_, ?_, ?_, ?_, ?_, ?_, ?_⟩
  · show s.hub.tokens.Fired s.hub.stop
    rw [mild.stop]
    exact mild.tokens.fired h.signalled
  · obtain ⟨new, past, quiet⟩ := h.idle
    refine ⟨(s.events.map fun e => (g.hub.now, slot, e)).reverse ++ new, ?_, ?_⟩
    · simp [afterStep, past]
    · intro e he
      rcases List.mem_append.1 he with he | he
      · obtain ⟨e', he', rfl⟩ := List.mem_map.1 (List.mem_reverse.1 he)
        exact idle e' he'
      · exact quiet e he
  · show f.hub.bus.queue = got ++ s.hub.bus.queue
    rw [queue_of_transition step, messages_of_idle idle, List.append_nil, h.queue]
  · have := sum_map_set (fun w => w.phase.leftToStop) hw s.worker
    have budget := h.budget
    simp only [leftToStop, afterStep] at budget ⊢
    omega
  · show (g.workers.set slot s.worker).length = _
    rw [List.length_set, h.length]
  · intro other v hv ended
    have hv' := h.done other v hv ended
    have hne : slot ≠ other := by
      rintro rfl
      obtain rfl : w = v := by simpa [hv'] using hw.symm
      rw [going] at ended
      cases ended
    rw [workers_afterStep_of_ne g s hne]
    exact hv'
  · intro other v hv going
    by_cases hne : slot = other
    · subst hne
      exact ⟨s.worker, workers_afterStep_self s hw, sound⟩
    · rw [workers_afterStep_of_ne g s hne]
      exact h.sound other v hv going

/-- What leaves the workers and their history alone goes on as before. -/
theorem withHub {hub : Hub} {more : List Message} (h : Winding f g steps got)
    (wired : Wired { g with hub }) (signalled : hub.tokens.Fired hub.stop)
    (queue : g.hub.bus.queue = more ++ hub.bus.queue) :
    Winding f { g with hub } steps (got ++ more) :=
  ⟨wired, signalled, h.idle, by rw [h.queue, queue, List.append_assoc], h.budget, h.length,
    h.done, h.sound⟩

theorem closeBus (h : Winding f g steps got) : Winding f g.closeBus.1 steps got := by
  have closed : g.closeBus.1 = { g with hub := { g.hub with bus := g.hub.bus.close.1 } } := rfl
  rw [closed, ← List.append_nil got]
  exact h.withHub h.wired.closedBus h.signalled rfl

/-- Receiving takes the oldest message. -/
theorem receive (h : Winding f g steps got) (hg : g.act? .receive = some g') :
    Winding f g' steps (got ++ g.takes .receive) := by
  have wired := h.wired.act hg
  obtain ⟨⟨m, g₁⟩, hr, rfl⟩ := Option.map_eq_some_iff.1 hg
  have takes : g.takes .receive = [m] := by simp [takes, hr]
  obtain ⟨⟨m', b⟩, ht, taken⟩ := Option.map_eq_some_iff.1 hr
  cases taken
  rw [takes]
  exact h.withHub wired h.signalled (Bus.queue_of_take? ht)

/-- While somebody has not ended, somebody can go on. -/
theorem canStep (h : Winding f g steps got) (going : g.leftToStop ≠ 0) :
    ∃ slot g', g.stepWorker? slot = some g' := by
  rw [ne_eq, leftToStop_eq_zero_iff] at going
  obtain ⟨w, hw, going⟩ : ∃ w ∈ g.workers, w.ended = false := by
    simpa [Classical.not_forall] using going
  obtain ⟨slot, hslot⟩ := List.getElem?_of_mem hw
  have can := isSome_step? (h.wired.each slot w hslot) h.signalled going
  obtain ⟨s, hs⟩ := Option.isSome_iff_exists.1 can
  exact ⟨slot, g.afterStep slot s, by simp [Fleet.stepWorker?, hslot, hs]⟩

end Winding

end Fleet

end FeedCapture
