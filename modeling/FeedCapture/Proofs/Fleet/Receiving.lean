import FeedCapture.Passage
import FeedCapture.Proofs.Worker.Transition

/-!
# Receiving from a fleet

As long as nobody gives up receiving somebody receives, and once the messages are over they stay
over.

The main statements are `Fleet.receiving_of_run?` and `Fleet.atEnd_of_run?`.
-/

namespace FeedCapture.Fleet

variable {f g : Fleet}

theorem received_append {xs ys : List Act} (ran : f.run? xs = some g) :
    f.received (xs ++ ys) = f.received xs ++ g.received ys := by
  induction xs generalizing f with
  | nil =>
    cases ran
    rfl
  | cons a xs ih =>
    obtain ⟨f', ha, ran⟩ := Option.bind_eq_some_iff.1 ran
    simp only [List.cons_append, received, ha, ih ran, List.append_assoc]

theorem receiving_of_act? {a : Act} (keep : a ≠ .dropReceivers) (h : f.act? a = some g) :
    g.hub.bus.receiving = f.hub.bus.receiving := by
  cases change_of_act? h with
  | step worker step =>
    exact (Worker.kept_of_transition (Worker.transition_of_step? step)).receiving
  | receive taken => exact (Bus.frame_of_take? taken).2.1
  | dropReceivers => exact absurd rfl keep
  | _ => rfl

/-- As long as nobody gives up receiving, somebody receives. -/
theorem receiving_of_run? {acts : List Act} (keep : .dropReceivers ∉ acts)
    (ran : f.run? acts = some g) : g.hub.bus.receiving = f.hub.bus.receiving := by
  induction acts generalizing f with
  | nil =>
    cases ran
    rfl
  | cons a acts ih =>
    obtain ⟨f', ha, ran⟩ := Option.bind_eq_some_iff.1 ran
    rw [List.mem_cons, not_or] at keep
    exact (ih keep.2 ran).trans (receiving_of_act? (Ne.symm keep.1) ha)

/-- The end is there when nothing is queued, the bus has given up its own sender, nobody who starts
workers holds one, and all workers have ended. -/
theorem atEnd_iff : f.atEnd = true ↔
    f.hub.bus.queue = [] ∧ f.hub.bus.ownSender = false ∧ f.spareSender = false ∧
      ∀ w ∈ f.workers, w.ended = true := by
  simp [atEnd, hasSender, and_assoc]

/-- Once the messages are over, they stay over. -/
theorem atEnd_of_act? {a : Act} (silent : f.atEnd = true) (ha : f.act? a = some g) :
    g.atEnd = true := by
  simp only [atEnd, hasSender, Bool.and_eq_true, List.isEmpty_iff, Bool.not_eq_true',
    Bool.or_eq_false_iff, List.any_eq_false] at silent ⊢
  obtain ⟨empty, ⟨own, spare⟩, ended⟩ := silent
  cases change_of_act? ha with
  | @step slot w s worker step =>
    have ended := ended w (List.mem_of_getElem? worker)
    cases phase : w.phase <;> simp_all [Worker.ended, Worker.step?]
  | receive taken => simp [Bus.take?, empty] at taken
  | stop => exact ⟨empty, ⟨own, spare⟩, ended⟩
  | closeAll => exact ⟨empty, ⟨own, spare⟩, ended⟩
  | closeBus => exact ⟨empty, ⟨rfl, spare⟩, ended⟩
  | dropReceivers => exact ⟨rfl, ⟨rfl, spare⟩, ended⟩
  | clock => exact ⟨empty, ⟨own, spare⟩, ended⟩

theorem atEnd_of_run? {acts : List Act} (silent : f.atEnd = true) (ran : f.run? acts = some g) :
    g.atEnd = true :=
  preserved_of_run? (P := fun f => f.atEnd = true) atEnd_of_act? silent ran

/-! ## When all workers have ended -/

/-- Who has ended stays as they are. -/
theorem workers_of_act? {a : Act} (h : f.act? a = some g) {slot : Nat} {w : Worker}
    (hw : f.workers[slot]? = some w) (ended : w.ended = true) : g.workers[slot]? = some w := by
  cases change_of_act? h with
  | @step other v s worker step =>
    refine (workers_afterStep_of_ne f s ?_).trans hw
    rintro rfl
    obtain rfl : v = w := Option.some.inj (worker.symm.trans hw)
    cases phase : v.phase <;> simp_all [Worker.ended, Worker.step?]
  | _ => exact hw

/-- Once all workers have ended, what is queued is received, and nothing else. -/
theorem drained_of_act? {a : Act} (keep : a ≠ .dropReceivers)
    (ended : ∀ w ∈ f.workers, w.ended = true) (ha : f.act? a = some g) :
    g.workers = f.workers ∧ f.takes a ++ g.hub.bus.queue = f.hub.bus.queue := by
  cases change_of_act? ha with
  | @step slot w s worker step =>
    have ended := ended w (List.mem_of_getElem? worker)
    cases phase : w.phase <;> simp_all [Worker.ended, Worker.step?]
  | @receive m bus taken =>
    have takes : f.takes .receive = [m] := by simp [takes, receive?, taken]
    rw [takes]
    exact ⟨rfl, (Bus.queue_of_take? taken).symm⟩
  | dropReceivers => exact absurd rfl keep
  | clock moves => rcases moves with rfl | rfl <;> exact ⟨rfl, rfl⟩
  | _ => exact ⟨rfl, rfl⟩

theorem drained_of_run? {acts : List Act} (keep : .dropReceivers ∉ acts)
    (ended : ∀ w ∈ f.workers, w.ended = true) (ran : f.run? acts = some g) :
    g.workers = f.workers ∧ f.received acts ++ g.hub.bus.queue = f.hub.bus.queue := by
  induction acts generalizing f with
  | nil =>
    cases ran
    exact ⟨rfl, rfl⟩
  | cons a acts ih =>
    obtain ⟨f', ha, ran⟩ := Option.bind_eq_some_iff.1 ran
    rw [List.mem_cons, not_or] at keep
    obtain ⟨workers, queue⟩ := drained_of_act? (Ne.symm keep.1) ended ha
    obtain ⟨workers', queue'⟩ := ih keep.2 (workers ▸ ended) ran
    refine ⟨workers'.trans workers, ?_⟩
    rw [received, ha, List.append_assoc, queue', queue]

/-- A bus without a sender of its own does not get one. -/
theorem ownSender_of_act? {a : Act} (closed : f.hub.bus.ownSender = false)
    (ha : f.act? a = some g) : g.hub.bus.ownSender = false := by
  cases change_of_act? ha with
  | step worker step =>
    exact (Worker.kept_of_transition (Worker.transition_of_step? step)).ownSender.trans closed
  | receive taken => exact (Bus.frame_of_take? taken).2.2.trans closed
  | closeBus => rfl
  | dropReceivers => rfl
  | _ => exact closed

end FeedCapture.Fleet
