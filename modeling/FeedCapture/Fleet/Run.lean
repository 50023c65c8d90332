import FeedCapture.Fleet

/-!
# Runs of a fleet

All that can happen to a fleet, one act at a time: a worker takes a step, somebody receives a
message, the fleet is told to stop or to close its connections, or time passes.  The acts may come
in any order, so the runs are all ways in which workers, consumer and control can interleave.  In
virtual time the clock moves on only while every worker waits, and never beyond the instant at which
the next one goes on; on a slow machine it may also run ahead of the workers.

## Main definitions

* `Fleet.Act`, `Fleet.act?` — what can happen, and what comes of it
* `Fleet.run?` — what comes of several acts in order
* `Fleet.Change` — the acts that are possible, with what they come to

The main statements say what an act comes to (`change_of_act?`), that letting the workers settle is
a run (`exists_run?_settle`), and that a run only adds to the history (`past_suffix_of_run?`).
-/

namespace FeedCapture.Fleet

/-- Something that can happen to a fleet. -/
inductive Act where
  /-- The worker in a slot takes a step. -/
  | step (slot : Nat)
  /-- The oldest message is received. -/
  | receive
  /-- The stop token is cancelled. -/
  | stop
  | closeAll
  | closeBus
  | dropReceivers
  /-- The clock moves on to an instant. -/
  | pass (t : Instant)
  /-- The clock moves on although somebody could go on. -/
  | lag (t : Instant)
deriving DecidableEq, Repr

/-- The clock can be moved on to an instant. -/
def canPass (f : Fleet) (t : Instant) : Bool :=
  f.hub.now ≤ t && !f.canStep &&
    match f.wakeAt with
    | some wake => t ≤ wake
    | none => true

/-- The fleet after an act, if the act is possible. -/
def act? (f : Fleet) : Act → Option Fleet
  | .step slot => f.stepWorker? slot
  | .receive => f.receive?.map Prod.snd
  | .stop => some f.stop
  | .closeAll => some f.closeAll.1
  | .closeBus => some f.closeBus.1
  | .dropReceivers => some f.dropReceivers
  | .pass t => if f.canPass t then some (f.moveTo t) else none
  | .lag t => if f.hub.now ≤ t then some (f.moveTo t) else none

/-- The fleet after acts in order, if all of them are possible. -/
def run? (f : Fleet) : List Act → Option Fleet
  | [] => some f
  | a :: rest => (f.act? a).bind fun f => f.run? rest

theorem run?_append (f : Fleet) (xs ys : List Act) :
    f.run? (xs ++ ys) = (f.run? xs).bind fun f => f.run? ys := by
  induction xs generalizing f with
  | nil => rfl
  | cons a xs ih => simp only [List.cons_append, run?, Option.bind_assoc, ih]

/-! ## Steps of one worker -/

/-- A step of the worker in a slot is a step of that worker. -/
theorem exists_of_stepWorker? {f g : Fleet} {slot : Nat} (h : f.stepWorker? slot = some g) :
    ∃ w s, f.workers[slot]? = some w ∧ w.step? f.hub = some s ∧ g = f.afterStep slot s := by
  unfold stepWorker? at h
  split at h
  · cases h
  · next w hw =>
    obtain ⟨s, hs, rfl⟩ := Option.map_eq_some_iff.1 h
    exact ⟨w, s, hw, hs, rfl⟩

theorem workers_afterStep_self {f : Fleet} {slot : Nat} {w : Worker} (s : Worker.Step)
    (hw : f.workers[slot]? = some w) : (f.afterStep slot s).workers[slot]? = some s.worker := by
  simp [afterStep, (List.getElem?_eq_some_iff.1 hw).1]

theorem workers_afterStep_of_ne (f : Fleet) {slot other : Nat} (s : Worker.Step)
    (hne : slot ≠ other) : (f.afterStep slot s).workers[other]? = f.workers[other]? := by
  simp [afterStep, List.getElem?_set_ne hne]

/-! ## What can happen -/

/-- What comes of the acts: the worker in a slot takes a step of its own, a message is taken off the
queue, the fleet is told something, or the clock moves on. -/
inductive Change (f : Fleet) : Act → Fleet → Prop where
  | step {slot : Nat} {w : Worker} {s : Worker.Step} (worker : f.workers[slot]? = some w)
      (step : w.step? f.hub = some s) : Change f (.step slot) (f.afterStep slot s)
  | receive {m : Message} {bus : Bus Nat} (taken : f.hub.bus.take? = some (m, bus)) :
      Change f .receive { f with hub := { f.hub with bus } }
  | stop : Change f .stop f.stop
  | closeAll : Change f .closeAll f.closeAll.1
  | closeBus : Change f .closeBus f.closeBus.1
  | dropReceivers : Change f .dropReceivers f.dropReceivers
  | clock {a : Act} {t : Instant} (moves : a = .pass t ∨ a = .lag t) (later : f.hub.now ≤ t) :
      Change f a (f.moveTo t)

theorem change_of_act? {f g : Fleet} {a : Act} (h : f.act? a = some g) : f.Change a g := by
  cases a with
  | step slot =>
    obtain ⟨w, s, worker, step, rfl⟩ := exists_of_stepWorker? h
    exact .step worker step
  | receive =>
    obtain ⟨r, received, rfl⟩ := Option.map_eq_some_iff.1 h
    obtain ⟨p, taken, rfl⟩ := Option.map_eq_some_iff.1 received
    exact .receive taken
  | stop => cases h; exact .stop
  | closeAll => cases h; exact .closeAll
  | closeBus => cases h; exact .closeBus
  | dropReceivers => cases h; exact .dropReceivers
  | pass t =>
    simp only [act?, Option.ite_none_right_eq_some, Option.some.injEq] at h
    obtain ⟨can, rfl⟩ := h
    simp only [canPass, Bool.and_eq_true, decide_eq_true_eq] at can
    exact .clock (.inl rfl) can.1.1
  | lag t =>
    simp only [act?, Option.ite_none_right_eq_some, Option.some.injEq] at h
    obtain ⟨later, rfl⟩ := h
    exact .clock (.inr rfl) later

/-- What no act breaks holds after a run. -/
theorem preserved_of_run? {P : Fleet → Prop}
    (keeps : ∀ {f g : Fleet} {a : Act}, P f → f.act? a = some g → P g) {f g : Fleet}
    {acts : List Act} (h : P f) (ran : f.run? acts = some g) : P g := by
  induction acts generalizing f with
  | nil => cases ran; exact h
  | cons a acts ih =>
    obtain ⟨f', ha, ran⟩ := Option.bind_eq_some_iff.1 ran
    exact ih (keeps h ha) ran

/-- What no act breaks, while timers fire when they are due, holds after a run. -/
theorem preserved_of_punctual {P : Fleet → Prop}
    (keeps : ∀ {f g : Fleet} {a : Act}, (∀ t, a ≠ .lag t) → P f → f.act? a = some g → P g)
    {f g : Fleet} {acts : List Act} (punctual : ∀ t, .lag t ∉ acts) (h : P f)
    (ran : f.run? acts = some g) : P g := by
  induction acts generalizing f with
  | nil => cases ran; exact h
  | cons a acts ih =>
    obtain ⟨f', ha, ran⟩ := Option.bind_eq_some_iff.1 ran
    have now : ∀ t, a ≠ .lag t := fun t same => punctual t (by simp [same])
    exact ih (fun t mem => punctual t (by simp [mem])) (keeps now h ha) ran

/-! ## Settling is a run -/

/-- Two runs, one after the other, are a run. -/
theorem exists_run?_trans {f g h : Fleet} (fg : ∃ acts, f.run? acts = some g)
    (gh : ∃ acts, g.run? acts = some h) : ∃ acts, f.run? acts = some h := by
  obtain ⟨xs, hx⟩ := fg
  obtain ⟨ys, hy⟩ := gh
  exact ⟨xs ++ ys, by rw [run?_append, hx, Option.bind_some, hy]⟩

theorem exists_run?_runWorker (slot fuel : Nat) (f : Fleet) :
    ∃ acts, f.run? acts = some (runWorker slot fuel f) := by
  induction fuel generalizing f with
  | zero => exact ⟨[], rfl⟩
  | succ fuel ih =>
    unfold runWorker
    split
    · exact ⟨[], rfl⟩
    · next g hg =>
      obtain ⟨acts, h⟩ := ih g
      exact ⟨.step slot :: acts, by simp [run?, act?, hg, h]⟩

theorem exists_run?_runWorkers (fuel : Nat) (slots : List Nat) (f : Fleet) :
    ∃ acts, f.run? acts = some (runWorkers fuel f slots) := by
  induction slots generalizing f with
  | nil => exact ⟨[], rfl⟩
  | cons slot slots ih => exact exists_run?_trans (exists_run?_runWorker slot fuel f) (ih _)

theorem exists_run?_rounds (effort fuel : Nat) (f : Fleet) :
    ∃ acts, f.run? acts = some (rounds effort fuel f) := by
  induction fuel generalizing f with
  | zero => exact ⟨[], rfl⟩
  | succ fuel ih =>
    unfold rounds
    split
    · exact exists_run?_trans (exists_run?_runWorkers _ _ _) (ih _)
    · exact ⟨[], rfl⟩

/-- Letting every worker go on until it waits is a run. -/
theorem exists_run?_settle (f : Fleet) : ∃ acts, f.run? acts = some f.settle :=
  exists_run?_rounds _ _ f

/-! ## The history only grows -/

theorem past_suffix_of_act? {f g : Fleet} {a : Act} (h : f.act? a = some g) :
    f.past <:+ g.past := by
  cases change_of_act? h with
  | step => exact List.suffix_append _ _
  | _ => exact List.suffix_refl _

/-- A run only adds to the history. -/
theorem past_suffix_of_run? {f g : Fleet} {acts : List Act} (h : f.run? acts = some g) :
    f.past <:+ g.past := by
  refine preserved_of_run? (P := fun g => f.past <:+ g.past) (fun past ha => ?_)
    (List.suffix_refl _) h
  exact past.trans (past_suffix_of_act? ha)

end FeedCapture.Fleet
