import FeedCapture.Proofs.Fleet.Logs
import FeedCapture.Proofs.Fleet.Stopping
import FeedCapture.Proofs.Worker.Allowance

/-!
# Fleets let time move on

Over a network whose plans are finite, the workers take only so many steps up to a horizon, whatever
they are told, whoever receives and in whatever order they go on.  So time cannot stand still for
ever: when nobody tells them anything any more, the workers come to wait, and the clock moves on to
the horizon.

## Main definitions

* `Fleet.allowance` — the steps that all workers together can still take up to a horizon
* `Fleet.Act.isStep` — a worker takes a step
* `Fleet.GoesOn` — a worker takes a step, time passes or an order is carried out, up to a horizon

The main statements are `finite_of_run`, and `canStep_settleWithin` for the order in which a session
lets the workers go on.
-/

namespace FeedCapture.Fleet

open Worker

/-- The steps that all workers together can still take up to a horizon. -/
def allowance (horizon : Instant) (f : Fleet) : Nat :=
  (f.workers.map fun w => w.phase.allowance horizon f.hub.now).sum +
    f.hub.network.allowance horizon f.hub.now

/-- A worker takes a step. -/
def Act.isStep : Act → Bool
  | .step _ => true
  | _ => false

variable {f g : Fleet} {a : Act} {acts : List Act} {slot : Nat} {horizon : Instant}

/-! ## Steps use the allowance up -/

/-- A step of any worker leaves one step less to all of them. -/
theorem allowance_lt_of_stepWorker? (paced : f.hub.policy.Paced) (early : f.hub.now ≤ horizon)
    (hg : f.stepWorker? slot = some g) : g.allowance horizon < f.allowance horizon := by
  obtain ⟨w, s, worker, step, rfl⟩ := exists_of_stepWorker? hg
  have taken := transition_of_step? step
  have used := allowance_of_transition paced taken early
  have others := sum_map_set (fun w => w.phase.allowance horizon f.hub.now) worker s.worker
  simp only [allowance, afterStep, (kept_of_transition taken).now]
  omega

/-- Nothing gives a step back. -/
theorem allowance_le_of_act? (paced : f.hub.policy.Paced) (early : f.hub.now ≤ horizon)
    (ha : f.act? a = some g) : g.allowance horizon ≤ f.allowance horizon := by
  cases change_of_act? ha with
  | step worker step => exact Nat.le_of_lt (allowance_lt_of_stepWorker? paced early ha)
  | clock moves later =>
    refine Nat.add_le_add ?_ (f.hub.network.allowance_anti horizon later)
    exact List.sum_le_sum fun w _ => w.phase.allowance_anti horizon later
  | _ => exact Nat.le_refl _

theorem policy_of_act? (ha : f.act? a = some g) : g.hub.policy = f.hub.policy := by
  have ran : f.run? [a] = some g := by simp [run?, ha]
  exact policy_of_run? ran

/-- The clock never goes back. -/
theorem now_le_of_act? (ha : f.act? a = some g) : f.hub.now ≤ g.hub.now := by
  cases change_of_act? ha with
  | step worker step =>
    exact Nat.le_of_eq (kept_of_transition (transition_of_step? step)).now.symm
  | clock moves later => exact later
  | _ => exact Nat.le_refl _

theorem now_le_of_run? (ran : f.run? acts = some g) : f.hub.now ≤ g.hub.now :=
  preserved_of_run? (P := fun g => f.hub.now ≤ g.hub.now)
    (fun le ha => Nat.le_trans le (now_le_of_act? ha)) (Nat.le_refl _) ran

/-- **Steps are counted.**  In a run up to a horizon the steps that the workers take and those that
they can still take are no more than those that they could take at its start. -/
theorem steps_add_allowance_le (paced : f.hub.policy.Paced) (ran : f.run? acts = some g)
    (early : g.hub.now ≤ horizon) :
    acts.countP Act.isStep + g.allowance horizon ≤ f.allowance horizon := by
  induction acts generalizing f with
  | nil =>
    cases ran
    simp
  | cons a acts ih =>
    obtain ⟨f', ha, ran⟩ := Option.bind_eq_some_iff.1 ran
    have now : f'.hub.now ≤ horizon := Nat.le_trans (now_le_of_run? ran) early
    have before : f.hub.now ≤ horizon := Nat.le_trans (now_le_of_act? ha) now
    have rest := ih (policy_of_act? ha ▸ paced) ran
    cases a with
    | step slot =>
      have used := allowance_lt_of_stepWorker? paced before ha
      rw [List.countP_cons_of_pos rfl]
      omega
    | _ =>
      have kept := allowance_le_of_act? paced before ha
      rw [List.countP_cons_of_neg (by simp [Act.isStep])]
      omega

/-! ## Time can pass while everybody waits -/

/-- While all workers wait, the first of them goes on by itself only later. -/
theorem now_lt_of_wakeAt (waits : f.canStep = false) {wake : Instant}
    (first : f.wakeAt = some wake) : f.hub.now < wake := by
  refine le_wakeAt (t := f.hub.now + 1) (fun w mem own wakes => ?_) first
  obtain ⟨slot, here⟩ := List.getElem?_of_mem mem
  exact lt_of_wakeAt (waits_of_canStep waits here) wakes

/-- Workers that wait go on waiting until the first of them goes on by itself. -/
theorem canStep_moveTo (waits : f.canStep = false) {t : Instant}
    (early : ∀ wake, f.wakeAt = some wake → t < wake) : (f.moveTo t).canStep = false := by
  refine List.any_eq_false.2 fun w mem => ?_
  obtain ⟨slot, here⟩ := List.getElem?_of_mem (l := f.workers) mem
  have still : w.step? { f.hub with now := t } = none := by
    refine step?_moveTo (waits_of_canStep waits here) fun wake wakes => ?_
    obtain ⟨first, goes, le⟩ := exists_wakeAt_le mem wakes
    exact Nat.lt_of_lt_of_le (early first goes) le
  show ¬(w.step? { f.hub with now := t }).isSome = true
  simp [still]

/-- While all workers wait, the clock can move on to a later instant. -/
theorem exists_canPass (waits : f.canStep = false) (early : f.hub.now < horizon) :
    ∃ t, f.hub.now < t ∧ t ≤ horizon ∧ f.canPass t = true := by
  cases first : f.wakeAt with
  | none =>
    exact ⟨horizon, early, Nat.le_refl _, by simp [canPass, waits, first, Nat.le_of_lt early]⟩
  | some wake =>
    have lt : f.hub.now < wake := now_lt_of_wakeAt waits first
    refine ⟨min horizon wake, Nat.lt_min.2 ⟨early, lt⟩, Nat.min_le_left _ _, ?_⟩
    simp [canPass, waits, first, Nat.le_of_lt early, Nat.le_of_lt lt]

/-- Going on up to a horizon, with what the fleet is still to be told and who is still to receive: a
worker takes a step, time passes, or the first of the orders is carried out. -/
inductive GoesOn (horizon : Instant) : Fleet × List Act → Fleet × List Act → Prop where
  | step {f g : Fleet} {orders : List Act} {slot : Nat} (early : f.hub.now ≤ horizon)
      (took : f.act? (.step slot) = some g) : GoesOn horizon (f, orders) (g, orders)
  | pass {f g : Fleet} {orders : List Act} {t : Instant} (later : f.hub.now < t)
      (early : t ≤ horizon) (passed : f.act? (.pass t) = some g) :
      GoesOn horizon (f, orders) (g, orders)
  | order {f g : Fleet} {orders : List Act} {a : Act} (early : f.hub.now ≤ horizon)
      (done : f.act? a = some g) : GoesOn horizon (f, a :: orders) (g, orders)

/-- A fleet with a paced policy does not go on for ever, whatever its orders are. -/
theorem acc_goesOn (horizon : Instant) (f : Fleet) (orders : List Act)
    (paced : f.hub.policy.Paced) : Acc (fun q p => GoesOn horizon p q) (f, orders) := by
  -- a step takes from the allowance, the clock from the time that is left, an order from the orders
  induction left : f.allowance horizon + instantsLeft horizon f.hub.now + orders.length
    using Nat.strong_induction_on generalizing f orders with
  | _ n ih =>
    have obeys : ∀ {a : Act} {g : Fleet}, f.act? a = some g → g.hub.policy.Paced :=
      fun ha => policy_of_act? ha ▸ paced
    refine ⟨(f, orders), fun q goes => ?_⟩
    cases goes with
    | @step _ g _ slot early took =>
      have used := allowance_lt_of_stepWorker? paced early took
      have now := instantsLeft_anti horizon (now_le_of_act? took)
      exact ih _ (by omega) g orders (obeys took) rfl
    | @pass _ g _ t later early passed =>
      have before : f.hub.now ≤ horizon := Nat.le_trans (Nat.le_of_lt later) early
      have kept := allowance_le_of_act? paced before passed
      have now : g.hub.now = t := by
        simp only [act?, Option.ite_none_right_eq_some, Option.some.injEq] at passed
        exact passed.2 ▸ rfl
      have less : instantsLeft horizon g.hub.now < instantsLeft horizon f.hub.now :=
        now ▸ instantsLeft_lt before later
      exact ih _ (by omega) g orders (obeys passed) rfl
    | @order _ g rest a early done =>
      have kept := allowance_le_of_act? paced early done
      have now := instantsLeft_anti horizon (now_le_of_act? done)
      rw [List.length_cons] at left
      exact ih _ (by omega) g rest (obeys done) rfl

/-- A fleet does not go on exactly when all workers wait at the horizon and the next order, if there
is one, cannot be carried out. -/
theorem not_goesOn_iff (early : f.hub.now ≤ horizon) (orders : List Act) :
    (∀ q, ¬GoesOn horizon (f, orders) q) ↔
      f.hub.now = horizon ∧ f.canStep = false ∧ ∀ a ∈ orders.head?, f.act? a = none := by
  constructor
  · intro stuck
    have waits : f.canStep = false := by
      refine List.any_eq_false.2 fun w mem can => ?_
      obtain ⟨slot, here⟩ := List.getElem?_of_mem mem
      obtain ⟨s, step⟩ := Option.isSome_iff_exists.1 can
      have took : f.act? (.step slot) = some (f.afterStep slot s) := by
        simp [act?, stepWorker?, here, step]
      exact stuck _ (.step early took)
    refine ⟨Nat.le_antisymm early (Nat.le_of_not_lt fun lt => ?_), waits, ?_⟩
    · obtain ⟨t, later, soon, can⟩ := exists_canPass waits lt
      exact stuck _ (.pass later soon (by simp [act?, can]; rfl))
    · intro a first
      obtain ⟨rest, rfl⟩ := List.head?_eq_some_iff.1 first
      cases done : f.act? a with
      | none => rfl
      | some g => exact absurd (.order early done) (stuck _)
  · rintro ⟨now, waits, next⟩ q goes
    cases goes with
    | step early took =>
      obtain ⟨w, s, worker, step, -⟩ := exists_of_stepWorker? took
      simp [waits_of_canStep waits worker] at step
    | pass later early passed => exact absurd (Nat.lt_of_lt_of_le later early) (by simp [now])
    | order early done => simp [next _ rfl] at done

/-! ## Everybody comes to wait -/

/-- What is still to be done at an instant: the steps of the workers and the messages to receive. -/
def load (f : Fleet) : Nat := f.allowance f.hub.now + f.hub.bus.queue.length

/-- The fleet is as it was, or its workers have taken steps at the same instant. -/
structure Spent (f g : Fleet) : Prop where
  policy : g.hub.policy = f.hub.policy
  now : g.hub.now = f.hub.now
  load : g.load ≤ f.load
  less : g = f ∨ g.allowance f.hub.now < f.allowance f.hub.now

namespace Spent

variable {f' : Fleet}

theorem refl (f : Fleet) : Spent f f := ⟨rfl, rfl, Nat.le_refl _, .inl rfl⟩

theorem le (spent : Spent f g) : g.allowance f.hub.now ≤ f.allowance f.hub.now := by
  rcases spent.less with rfl | less
  · exact Nat.le_refl _
  · exact Nat.le_of_lt less

theorem trans (first : Spent f f') (rest : Spent f' g) : Spent f g := by
  refine ⟨rest.policy.trans first.policy, rest.now.trans first.now,
    Nat.le_trans rest.load first.load, ?_⟩
  rcases first.less with rfl | less
  · exact rest.less
  · have le := rest.le
    rw [first.now] at le
    exact .inr (Nat.lt_of_le_of_lt le less)

end Spent

theorem allowance_lt_of_step (paced : f.hub.policy.Paced) (hg : f.stepWorker? slot = some g) :
    g.allowance f.hub.now < f.allowance f.hub.now :=
  allowance_lt_of_stepWorker? paced (Nat.le_refl _) hg

/-- A step leaves less to do, also when it puts a message on the bus. -/
theorem spent_stepWorker? (paced : f.hub.policy.Paced) (hg : f.stepWorker? slot = some g) :
    Spent f g := by
  have used := allowance_lt_of_step paced hg
  obtain ⟨w, s, worker, step, rfl⟩ := exists_of_stepWorker? hg
  have taken := transition_of_step? step
  have kept := kept_of_transition taken
  have queued : s.hub.bus.queue.length ≤ f.hub.bus.queue.length + 1 := length_queue_le taken
  refine ⟨kept.policy, kept.now, ?_, .inr used⟩
  have now : (f.afterStep slot s).hub.now = f.hub.now := kept.now
  simp only [load, now]
  show _ + s.hub.bus.queue.length ≤ _
  omega

theorem spent_runWorker (paced : f.hub.policy.Paced) (slot fuel : Nat) :
    Spent f (runWorker slot fuel f) := by
  induction fuel generalizing f with
  | zero => exact .refl f
  | succ fuel ih =>
    unfold runWorker
    split
    · exact .refl f
    · next g hg =>
      have first := spent_stepWorker? paced hg
      exact first.trans (ih (first.policy ▸ paced))

theorem spent_runWorkers (paced : f.hub.policy.Paced) (fuel : Nat) (slots : List Nat) :
    Spent f (runWorkers fuel f slots) := by
  induction slots generalizing f with
  | nil => exact .refl f
  | cons slot slots ih =>
    have first := spent_runWorker paced slot fuel
    exact first.trans (ih (first.policy ▸ paced))

theorem spent_rounds (paced : f.hub.policy.Paced) (effort fuel : Nat) :
    Spent f (rounds effort fuel f) := by
  induction fuel generalizing f with
  | zero => exact .refl f
  | succ fuel ih =>
    unfold rounds
    split
    · have first := spent_runWorkers paced effort (List.range f.workers.length)
      exact first.trans (ih (first.policy ▸ paced))
    · exact .refl f

/-- A worker that can go on does so when all of them are let go on. -/
theorem allowance_runWorkers_lt (paced : f.hub.policy.Paced) (fuel : Nat) {slots : List Nat}
    (mem : slot ∈ slots) (can : (f.stepWorker? slot).isSome = true) :
    (runWorkers (fuel + 1) f slots).allowance f.hub.now < f.allowance f.hub.now := by
  induction slots with
  | nil => cases mem
  | cons head slots ih =>
    show (runWorkers (fuel + 1) (runWorker head (fuel + 1) f) slots).allowance f.hub.now < _
    cases hg : f.stepWorker? head with
    | some g =>
      have run : runWorker head (fuel + 1) f = runWorker head fuel g := by simp [runWorker, hg]
      have first := spent_stepWorker? paced hg
      have own := spent_runWorker (first.policy ▸ paced) head fuel
      have rest := own.trans
        (spent_runWorkers (own.policy ▸ first.policy ▸ paced) (fuel + 1) slots)
      have le := rest.le
      rw [first.now] at le
      rw [run]
      exact Nat.lt_of_le_of_lt le (allowance_lt_of_step paced hg)
    | none =>
      have run : runWorker head (fuel + 1) f = f := by simp [runWorker, hg]
      have other : slot ≠ head := by
        rintro rfl
        simp [hg] at can
      rw [run]
      exact ih ((List.mem_cons.1 mem).resolve_left other)

/-- When somebody can go on, it is the worker in some slot. -/
theorem exists_slot_of_canStep (can : f.canStep = true) :
    ∃ slot ∈ List.range f.workers.length, (f.stepWorker? slot).isSome = true := by
  obtain ⟨w, mem, step⟩ := List.any_eq_true.1 can
  obtain ⟨slot, here⟩ := List.getElem?_of_mem mem
  refine ⟨slot, List.mem_range.2 (List.getElem?_eq_some_iff.1 here).1, ?_⟩
  simpa [stepWorker?, here] using step

/-- Who has nothing left to do waits. -/
theorem canStep_of_allowance_eq_zero (paced : f.hub.policy.Paced)
    (none : f.allowance f.hub.now = 0) : f.canStep = false := by
  cases can : f.canStep with
  | false => rfl
  | true =>
    obtain ⟨slot, -, step⟩ := exists_slot_of_canStep can
    obtain ⟨g, hg⟩ := Option.isSome_iff_exists.1 step
    have := allowance_lt_of_step paced hg
    omega

/-- With rounds enough, everybody comes to wait. -/
theorem canStep_rounds (paced : f.hub.policy.Paced) (effort : Nat) {fuel : Nat}
    (enough : f.allowance f.hub.now ≤ fuel) : (rounds (effort + 1) fuel f).canStep = false := by
  induction fuel generalizing f with
  | zero => exact canStep_of_allowance_eq_zero paced (Nat.le_zero.1 enough)
  | succ fuel ih =>
    unfold rounds
    split
    · next can =>
      obtain ⟨slot, mem, step⟩ := exists_slot_of_canStep can
      have spent := spent_runWorkers paced (effort + 1) (List.range f.workers.length)
      have less := allowance_runWorkers_lt paced effort mem step
      refine ih (spent.policy ▸ paced) ?_
      rw [spent.now]
      omega
    · next still => simpa using still

/-! ## The effort of a fleet is enough -/

theorem together_eq_sum {α : Type} (effort : α → Nat) (xs : List α) :
    together effort xs = (xs.map effort).sum := by
  have from_ : ∀ total, xs.foldl (fun total x => total + effort x) total =
      total + (xs.map effort).sum := by
    induction xs with
    | nil => simp
    | cons x xs ih =>
      intro total
      simp only [List.foldl_cons, List.map_cons, List.sum_cons, ih]
      omega
  simpa [together] using from_ 0

theorem sum_allowance_le_peersEffort {α : Type} (acts : List (α × Transport.Peer)) :
    (acts.map fun p => p.2.allowance).sum ≤ peersEffort acts := by
  rw [peersEffort, together_eq_sum]
  refine List.sum_le_sum fun p _ => ?_
  cases p.2 with
  | sends data =>
    simp only [Transport.Peer.allowance, peerEffort]
    omega
  | _ => exact Nat.zero_le _

theorem instantsLeft_self (now : Instant) : instantsLeft now now = 1 := Nat.add_sub_cancel_left ..

theorem allowance_le_outcomeEffort (now : Instant) (outcome : Transport.Outcome) :
    outcome.allowance now now ≤ outcomeEffort outcome := by
  cases outcome with
  | connected peer tuning =>
    have := sum_allowance_le_peersEffort peer
    simp only [Transport.Outcome.allowance, outcomeEffort, instantsLeft_self]
    omega
  | _ => exact Nat.zero_le _

theorem allowance_le_dialEffort (now : Instant) (dial : Transport.Dial) :
    dial.allowance now now ≤ dialEffort dial := by
  cases dial with
  | hangs => exact Nat.zero_le _
  | settles delay outcome => exact allowance_le_outcomeEffort now outcome

theorem allowance_le_workerEffort (now : Instant) (w : Worker) :
    w.phase.allowance now now ≤ workerEffort w := by
  have one := instantsLeft_self now
  have chance : ∀ due, chances now now due ≤ 1 := fun due => by
    unfold chances
    split <;> omega
  unfold workerEffort
  cases w.phase with
  | dialing due outcome =>
    have := allowance_le_outcomeEffort now outcome
    simp only [Phase.allowance]
    omega
  | pausing until_ =>
    have := chance until_
    simp only [Phase.allowance]
    omega
  | reading link deadline =>
    have := chance deadline
    have := sum_allowance_le_peersEffort link.connection.incoming
    simp only [Phase.allowance, Connection.allowance]
    omega
  | delivering link m =>
    have := sum_allowance_le_peersEffort link.connection.incoming
    simp only [Phase.allowance, Connection.allowance]
    omega
  | _ =>
    simp only [Phase.allowance]
    omega

/-- The effort of a fleet covers what all workers can do before time passes. -/
theorem allowance_le_effort (f : Fleet) : f.allowance f.hub.now ≤ f.effort := by
  have workers : (f.workers.map fun w => w.phase.allowance f.hub.now f.hub.now).sum ≤
      together workerEffort f.workers := by
    rw [together_eq_sum]
    exact List.sum_le_sum fun w _ => allowance_le_workerEffort f.hub.now w
  have plans : f.hub.network.allowance f.hub.now f.hub.now ≤
      together (fun p => together dialEffort p.2) f.hub.network.plans := by
    rw [together_eq_sum]
    refine List.sum_le_sum fun p _ => ?_
    rw [together_eq_sum]
    exact List.sum_le_sum fun dial _ => allowance_le_dialEffort f.hub.now dial
  simp only [allowance, effort]
  omega

/-- With an effort that covers what they can do, all workers wait after they were let go on. -/
theorem canStep_settleWithin (paced : f.hub.policy.Paced) {effort : Nat} (some_ : effort ≠ 0)
    (enough : f.allowance f.hub.now ≤ effort) : (f.settleWithin effort).canStep = false := by
  obtain ⟨n, rfl⟩ := Nat.exists_eq_add_one_of_ne_zero some_
  exact canStep_rounds paced n enough

theorem effort_ne_zero (f : Fleet) : f.effort ≠ 0 := by
  unfold effort
  omega

/-! ## The main statement -/

variable {policy : Policy} {network : Network} {bus : Bus Nat} {counting spare : Bool}
  {addrs : List String} {start : Fleet}

/-- **Time moves on.**  In every run of a fleet whose policy is accepted and pauses after failed
dials: up to a horizon the workers take no more steps than the plans of the network and the time
allow, whatever they are told and whoever receives.  From wherever the run has come to by then, no
way of going on lasts for ever, whatever is still to be told and received; it ends only when all
workers wait at the horizon and nothing of that can be done. -/
theorem finite_of_run (accepted : policy.check = .ok ()) (pause : policy.reconnectDelay ≠ 0)
    (new : start = (create policy network bus counting spare).spawn addrs)
    (ran : start.run? acts = some f) (early : f.hub.now ≤ horizon) :
    acts.countP Act.isStep ≤
        addrs.length * (3 * (horizon + 1) + 2) + network.allowance horizon 0 ∧
      ∀ orders, Acc (fun q p => GoesOn horizon p q) (f, orders) ∧
        ((∀ q, ¬GoesOn horizon (f, orders) q) ↔
          f.hub.now = horizon ∧ f.canStep = false ∧ ∀ a ∈ orders.head?, f.act? a = none) := by
  have paced : start.hub.policy.Paced := by
    rw [new]
    exact policy.paced_of_check accepted pause
  have allowed : start.allowance horizon =
      addrs.length * (3 * (horizon + 1) + 2) + network.allowance horizon 0 := by
    have each : (start.workers.map fun w => w.phase.allowance horizon start.hub.now) =
        List.replicate addrs.length (3 * (horizon + 1) + 2) := by
      subst new
      refine List.ext_getElem (by simp [spawn]) fun n _ _ => ?_
      simp [spawn, create, Phase.allowance, instantsLeft]
    rw [allowance, each]
    simp [new, spawn, create]
  have counted := steps_add_allowance_le paced ran early
  refine ⟨?_, fun orders => ⟨?_, not_goesOn_iff early orders⟩⟩
  · omega
  · exact acc_goesOn horizon f orders (policy_of_run? ran ▸ paced)

/-- One worker redials at once after each of its connections and reads a byte at a time, from a bus
with one place; the other one has nothing to dial. -/
def eager : Fleet :=
  (create { reconnectDelay := 2, readBufferSize := 1 }
    ⟨[("feed:1", [.settles 0 (.connected [(0, .sends [1, 2]), (0, .ends)] none),
      .settles 0 (.connected [] none)])]⟩ { capacity := 1 } true false).spawn ["feed:1", "feed:2"]

/-- The first message fills the bus, the second one waits until that is received, and all that
happens at one instant. -/
def eagerActs : List Act :=
  [.step 0, .step 0, .step 0, .step 0, .receive, .step 0, .step 0, .step 0, .step 0, .step 1,
    .step 1]

/-- The workers take ten steps at the first instant, of the forty-six that there can be in the first
four; then they wait.  With a message to receive and the stop to come the fleet goes on, but not for
ever. -/
theorem finite_of_run_eager :
    ∃ f, eager.run? eagerActs = some f ∧ f.hub.now = 0 ∧ f.canStep = false ∧
      eagerActs.countP Act.isStep = 10 ∧
      2 * (3 * (3 + 1) + 2) + eager.hub.network.allowance 3 0 = 46 ∧
      Acc (fun q p => GoesOn 3 p q) (f, [.receive, .stop]) ∧
      ¬∀ q, ¬GoesOn 3 (f, [.receive, .stop]) q := by
  have told : (eager.run? eagerActs).map (fun f => (f.hub.now, f.canStep)) = some (0, false) := by
    decide +kernel
  obtain ⟨f, ran, state⟩ := Option.map_eq_some_iff.1 told
  obtain ⟨now, waits⟩ := Prod.mk.inj state
  have early : f.hub.now ≤ 3 := by rw [now]; decide
  obtain ⟨-, ends⟩ := finite_of_run rfl (by decide) rfl ran early
  obtain ⟨acc, stuck⟩ := ends [.receive, .stop]
  refine ⟨f, ran, now, waits, by decide, by decide, acc, fun still => ?_⟩
  exact absurd (now.symm.trans (stuck.1 still).1) (by decide)

end FeedCapture.Fleet
