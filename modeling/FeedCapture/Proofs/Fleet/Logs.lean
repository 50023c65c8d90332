import FeedCapture.Proofs.Fleet.Fidelity
import FeedCapture.Proofs.Fleet.Wiring
import FeedCapture.Proofs.Worker.Waiting
import Mathlib.Data.List.Induction

/-!
# What the logs of workers are made of

The log of a worker grows by what its own steps do.  So every entry leads back to the step that made
it, with the state of the fleet then; and what the steps of a worker keep, and the clock does not
break, holds of the worker and its log at any time.

## Main definitions

* `Worker.logged` — what a step does, as the log has it
* `Fleet.Moment` — a step of a worker in the middle of a run
* `Fleet.Holds` — something holds of the worker in a slot and its log

The main statements are `exists_moment`, `Holds.run` and `Holds.run_of_punctual`.
-/

namespace FeedCapture

/-- An entry of two parts of a log stands in one of them. -/
theorem mem_or_mem_of_append {α : Type} {xs ys later earlier : List α} {x : α}
    (split : xs ++ ys = later ++ x :: earlier) :
    (∃ rest, later = xs ++ rest ∧ ys = rest ++ x :: earlier) ∨
      ∃ rest, xs = later ++ x :: rest ∧ earlier = rest ++ ys := by
  rcases List.append_eq_append_iff.1 split with ⟨rest, rfl, old⟩ | ⟨rest, rfl, old⟩
  · exact .inl ⟨rest, rfl, old⟩
  · cases rest with
    | nil => exact .inl ⟨[], by simp, by simpa using old.symm⟩
    | cons first rest =>
      obtain ⟨rfl, rfl⟩ := List.cons.inj old
      exact .inr ⟨rest, rfl, rfl⟩

namespace Worker

/-- What a worker does at an instant, as its log has it: the latest first. -/
def logged (t : Instant) (es : List Event) : List (Instant × Event) :=
  (es.map fun e => (t, e)).reverse

variable {t t' : Instant} {e : Event} {es : List Event} {log : List (Instant × Event)}

@[simp] theorem logged_nil (t : Instant) : logged t [] = [] := rfl

@[simp] theorem logged_cons (t : Instant) (e : Event) (es : List Event) :
    logged t (e :: es) = logged t es ++ [(t, e)] := by
  simp [logged]

@[simp] theorem logged_append (t : Instant) (xs ys : List Event) :
    logged t (xs ++ ys) = logged t ys ++ logged t xs := by
  simp [logged]

@[simp] theorem mem_logged : (t', e) ∈ logged t es ↔ t' = t ∧ e ∈ es := by
  simp only [logged, List.mem_reverse, List.mem_map, Prod.mk.injEq]
  constructor
  · rintro ⟨e, mem, rfl, rfl⟩
    exact ⟨rfl, mem⟩
  · rintro ⟨rfl, mem⟩
    exact ⟨e, mem, rfl, rfl⟩

/-- An entry among those of a step parts what the step did. -/
theorem exists_of_logged_eq {later earlier : List (Instant × Event)}
    (split : logged t es = later ++ (t', e) :: earlier) :
    ∃ pre post, es = pre ++ e :: post ∧ t' = t ∧ later = logged t post ∧
      earlier = logged t pre := by
  have turned : es.map (fun e => (t, e)) = earlier.reverse ++ (t', e) :: later.reverse := by
    rw [← List.reverse_eq_iff.2 split.symm]
    simp
  obtain ⟨pre, rest, rfl, early, tail⟩ := List.map_eq_append_iff.1 turned
  obtain ⟨e', post, rfl, same, late⟩ := List.map_eq_cons_iff.1 tail
  cases same
  refine ⟨pre, post, rfl, rfl, ?_, ?_⟩
  · rw [logged, late, List.reverse_reverse]
  · rw [logged, early, List.reverse_reverse]

end Worker

namespace Fleet

open Worker

variable {start f g : Fleet} {a : Act} {acts : List Act} {slot : Nat}

/-- Only its own steps change a worker and its log. -/
theorem unchanged_of_act? (ha : f.act? a = some g) (other : a ≠ .step slot) :
    g.workers[slot]? = f.workers[slot]? ∧ g.log slot = f.log slot := by
  cases change_of_act? ha with
  | @step slot' w s worker step =>
    have hne : slot' ≠ slot := fun same => other (congrArg Act.step same)
    exact ⟨workers_afterStep_of_ne f s hne, log_afterStep_of_ne hne⟩
  | _ => exact ⟨rfl, rfl⟩

/-- No worker is lost in a run. -/
theorem isSome_of_run? (ran : f.run? acts = some g) (here : (f.workers[slot]?).isSome) :
    (g.workers[slot]?).isSome := by
  refine preserved_of_run? (P := fun f => (f.workers[slot]?).isSome) (fun {f g a} here ha => ?_)
    here ran
  by_cases own : a = .step slot
  · subst own
    obtain ⟨w, s, worker, -, rfl⟩ := exists_of_stepWorker? ha
    rw [workers_afterStep_self s worker]
    rfl
  · rw [(unchanged_of_act? ha own).1]
    exact here

/-- All workers obey the same policy all the time. -/
theorem policy_of_run? (ran : f.run? acts = some g) : g.hub.policy = f.hub.policy := by
  refine preserved_of_run? (P := fun g => g.hub.policy = f.hub.policy) (fun same ha => ?_) rfl ran
  cases change_of_act? ha with
  | step here step => exact (kept_of_transition (transition_of_step? step)).policy.trans same
  | _ => exact same

/-- The clock stands still, unless it is moved on. -/
theorem now_of_act? (ha : f.act? a = some g) :
    g.hub.now = f.hub.now ∨ ∃ t, (a = .pass t ∨ a = .lag t) ∧ g.hub.now = t := by
  cases change_of_act? ha with
  | step here step => exact .inl (kept_of_transition (transition_of_step? step)).now
  | @clock _ t moves later => exact .inr ⟨t, moves, rfl⟩
  | _ => exact .inl rfl

/-- A run with one more act is a run, and then the act. -/
theorem exists_of_run?_concat (ran : start.run? (acts ++ [a]) = some g) :
    ∃ f, start.run? acts = some f ∧ f.act? a = some g := by
  rw [run?_append, Option.bind_eq_some_iff] at ran
  obtain ⟨f, ran, last⟩ := ran
  exact ⟨f, ran, by simpa [run?] using last⟩

/-! ## Moments -/

/-- A step of the worker in a slot, in the middle of a run that leads from one fleet to another. -/
structure Moment (start : Fleet) (acts : List Act) (g : Fleet) (slot : Nat) where
  before : List Act
  after : List Act
  fleet : Fleet
  worker : Worker
  step : Worker.Step
  acts_eq : acts = before ++ .step slot :: after
  reached : start.run? before = some fleet
  here : fleet.workers[slot]? = some worker
  taken : Transition fleet.hub worker step
  rest : (fleet.afterStep slot step).run? after = some g

namespace Moment

/-- The moment is still in the middle of the run after one more act. -/
def snoc (m : Moment start acts f slot) (ha : f.act? a = some g) :
    Moment start (acts ++ [a]) g slot where
  before := m.before
  after := m.after ++ [a]
  fleet := m.fleet
  worker := m.worker
  step := m.step
  acts_eq := by simp [m.acts_eq]
  reached := m.reached
  here := m.here
  taken := m.taken
  rest := by simp [run?_append, m.rest, run?, ha]

/-- The worker is still there at the end of the run. -/
theorem exists_worker (m : Moment start acts g slot) : ∃ w, g.workers[slot]? = some w := by
  refine Option.isSome_iff_exists.1 (isSome_of_run? m.rest ?_)
  rw [workers_afterStep_self m.step m.here]
  rfl

end Moment

/-- All workers of a fleet obey the policy that it was made with. -/
theorem Moment.obeys {policy : Policy} {network : Network} {bus : Bus Nat} {counting spare : Bool}
    {addrs : List String} (m : Moment start acts g slot)
    (new : start = (create policy network bus counting spare).spawn addrs) :
    m.fleet.hub.policy = policy := by
  rw [policy_of_run? m.reached, new]
  rfl

/-- Where an entry stands in what a step did and in the log. -/
structure Moment.Made (m : Moment start acts g slot) (pre : List Event) (entry : Instant × Event)
    (post : List Event) (later earlier : List (Instant × Event)) : Prop where
  events : m.step.events = pre ++ entry.2 :: post
  now : m.fleet.hub.now = entry.1
  earlier : earlier = logged entry.1 pre ++ m.fleet.log slot
  later : ∃ since, later = since ++ logged entry.1 post

/-- Every entry of the log of a worker was made by one of its steps. -/
theorem exists_moment (ran : start.run? acts = some g) (new : start.log slot = [])
    {later earlier : List (Instant × Event)} {entry : Instant × Event}
    (split : g.log slot = later ++ entry :: earlier) :
    ∃ (m : Moment start acts g slot) (pre post : List Event),
      m.Made pre entry post later earlier := by
  induction acts using List.reverseRecOn generalizing g later with
  | nil =>
    obtain rfl : start = g := Option.some.inj ran
    simp [new] at split
  | append_singleton acts a ih =>
    obtain ⟨f, before, ha⟩ := exists_of_run?_concat ran
    by_cases own : a = .step slot
    · subst own
      obtain ⟨w, s, worker, step, rfl⟩ := exists_of_stepWorker? ha
      rw [log_afterStep_self] at split
      rcases mem_or_mem_of_append split with ⟨rest, rfl, old⟩ | ⟨rest, new, rfl⟩
      · obtain ⟨m, pre, post, made⟩ := ih before old
        obtain ⟨since, rfl⟩ := made.later
        exact ⟨m.snoc ha, pre, post, made.events, made.now, made.earlier, _ ++ since,
          (List.append_assoc ..).symm⟩
      · obtain ⟨t, e⟩ := entry
        obtain ⟨pre, post, events, rfl, rfl, rfl⟩ := exists_of_logged_eq new
        let m : Moment start (acts ++ [.step slot]) (f.afterStep slot s) slot :=
          ⟨acts, [], f, w, s, rfl, before, worker, transition_of_step? step, rfl⟩
        exact ⟨m, pre, post, events, rfl, rfl, [], rfl⟩
    · rw [(unchanged_of_act? ha own).2] at split
      obtain ⟨m, pre, post, made⟩ := ih before split
      exact ⟨m.snoc ha, pre, post, made.events, made.now, made.earlier, made.later⟩

/-! ## What holds of a worker at any time -/

/-- When nobody can go on, every worker waits. -/
theorem waits_of_canStep {w : Worker} (still : f.canStep = false)
    (here : f.workers[slot]? = some w) : w.step? f.hub = none := by
  simpa using List.any_eq_false.1 still w (List.mem_of_getElem? here)

/-- The clock can be moved on while every worker waits, up to the time at which the first one goes
on by itself. -/
theorem waits_of_canPass {w : Worker} {t : Instant} (can : f.canPass t = true)
    (here : f.workers[slot]? = some w) :
    w.step? f.hub = none ∧ f.hub.now ≤ t ∧ ∀ wake, w.wakeAt = some wake → t ≤ wake := by
  simp only [canPass, Bool.and_eq_true, decide_eq_true_eq, Bool.not_eq_true'] at can
  obtain ⟨⟨later, still⟩, early⟩ := can
  refine ⟨waits_of_canStep still here, later, fun wake wakes => ?_⟩
  obtain ⟨first, next, le⟩ := exists_wakeAt_le (List.mem_of_getElem? here) wakes
  rw [next] at early
  exact Nat.le_trans (of_decide_eq_true early) le

/-- Something holds of the worker in a slot, by the policy, the clock and its log. -/
def Holds (P : Policy → Instant → Worker → List (Instant × Event) → Prop) (slot : Nat)
    (f : Fleet) : Prop :=
  ∀ w, f.workers[slot]? = some w → P f.hub.policy f.hub.now w (f.log slot)

variable {P : Policy → Instant → Worker → List (Instant × Event) → Prop}

/-- The steps of a worker keep it. -/
def Stepwise (P : Policy → Instant → Worker → List (Instant × Event) → Prop) : Prop :=
  ∀ {h : Hub} {w : Worker} {s : Worker.Step} {log : List (Instant × Event)},
    P h.policy h.now w log → Transition h w s →
      P h.policy h.now s.worker (logged h.now s.events ++ log)

theorem holds_spawn {policy : Policy} {network : Network} {bus : Bus Nat} {counting spare : Bool}
    {addrs : List String} (init : ∀ key, P policy 0 { key } []) (slot : Nat) :
    Holds P slot ((create policy network bus counting spare).spawn addrs) := by
  intro w hw
  simp only [spawn, List.getElem?_mapIdx, Option.map_eq_some_iff] at hw
  obtain ⟨addr, -, rfl⟩ := hw
  exact init _

namespace Holds

theorem step {w : Worker} {s : Worker.Step} (holds : Holds P slot f) (keeps : Stepwise P)
    (here : f.workers[slot]? = some w) (step : Transition f.hub w s) :
    Holds P slot (f.afterStep slot s) := by
  have kept := kept_of_transition step
  intro v hv
  obtain rfl : s.worker = v := by simpa [workers_afterStep_self s here] using hv
  show P s.hub.policy s.hub.now s.worker _
  rw [kept.policy, kept.now, log_afterStep_self]
  exact keeps (holds w here) step

/-- Whatever happens keeps it, if the clock does. -/
theorem act (holds : Holds P slot f) (keeps : Stepwise P)
    (clock : ∀ t, a = .pass t ∨ a = .lag t → f.act? a = some (f.moveTo t) → f.hub.now ≤ t →
      Holds P slot (f.moveTo t))
    (ha : f.act? a = some g) : Holds P slot g := by
  by_cases own : a = .step slot
  · subst own
    obtain ⟨w, s, here, hs, rfl⟩ := exists_of_stepWorker? ha
    exact holds.step keeps here (transition_of_step? hs)
  · obtain ⟨worker, log⟩ := unchanged_of_act? ha own
    cases change_of_act? ha with
    | step _ hs =>
      have kept := kept_of_transition (transition_of_step? hs)
      intro w hw
      rw [worker] at hw
      rw [log]
      show P _ _ w _
      have := holds w hw
      rwa [← kept.policy, ← kept.now] at this
    | clock moves later => exact clock _ moves ha later
    | _ => exact holds

/-- What steps keep and no time breaks holds after any run. -/
theorem run (holds : Holds P slot f) (keeps : Stepwise P)
    (later : ∀ {policy now t w log}, P policy now w log → now ≤ t → P policy t w log)
    (ran : f.run? acts = some g) : Holds P slot g :=
  preserved_of_run? (P := Holds P slot)
    (fun holds ha => holds.act keeps (fun _ _ _ le w hw => later (holds w hw) le) ha) holds ran

/-- What steps keep, and the time up to which a worker waits, holds after a run in which timers
fire when they are due. -/
theorem run_of_punctual (holds : Holds P slot f) (keeps : Stepwise P)
    (later : ∀ {h : Hub} {w : Worker} {log t}, P h.policy h.now w log → w.step? h = none →
      h.now ≤ t → (∀ wake, w.wakeAt = some wake → t ≤ wake) → P h.policy t w log)
    (punctual : ∀ t, .lag t ∉ acts) (ran : f.run? acts = some g) : Holds P slot g := by
  refine preserved_of_punctual (P := Holds P slot) (fun {f g a} now holds ha => ?_) punctual
    holds ran
  refine holds.act keeps (fun t moves passed _ w hw => ?_) ha
  rcases moves with rfl | rfl
  · simp only [act?, Option.ite_none_right_eq_some] at passed
    obtain ⟨waits, le, early⟩ := waits_of_canPass passed.1 hw
    show P f.hub.policy t w (f.log slot)
    exact later (holds w hw) waits le early
  · exact absurd rfl (now t)

end Holds

end Fleet

end FeedCapture
