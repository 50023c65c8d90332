import FeedCapture.Proofs.Fleet.Stopping
import FeedCapture.Proofs.Worker.Bystander
import FeedCapture.Proofs.Worker.Sharing

/-!
# Fleets with one worker more

A fleet beside the same fleet with one worker more, which never gets a connection.  Whatever else
happens happens to both in the same way, and a step of that worker changes nothing for the others.

## Main definitions

* `Fleet.Beside` — a fleet and the same fleet without one worker

The main statements are `Fleet.Beside.rel_stepWorker?` for the other workers and
`Fleet.Beside.stepOwn` for the worker itself.
-/

namespace FeedCapture.Fleet

open Worker

/-- How many steps the worker in a slot takes before it waits, if it gets no connection. -/
def urge (f : Fleet) (slot : Nat) : Nat :=
  match f.workers[slot]? with
  | some w => w.urge f.hub.now
  | none => 0

/-- The fleet `g` is the fleet `f` without the worker of a key, which never gets a connection. -/
structure Beside (key : SourceKey) (f g : Fleet) : Prop where
  hub : f.hub.AgreesBut key.addr g.hub
  planned : Unreachable f.hub.network key.addr
  past : g.past = f.past.filter fun e => e.2.1 ≠ key.slot
  others : ∀ slot, slot ≠ key.slot → g.workers[slot]? = f.workers[slot]?
  absent : g.workers[key.slot]? = none
  vain : ∀ w, f.workers[key.slot]? = some w → w.key = key ∧ w.Vain f.hub.network
  addrs : ∀ w ∈ g.workers, w.key.addr ≠ key.addr

namespace Beside

variable {key : SourceKey} {f g f' g' : Fleet}

/-- What is done to what the workers share, in both fleets alike. -/
theorem withHub (beside : Beside key f g) {h h' : Hub} (hub : h.AgreesBut key.addr h')
    (network : h.network = f.hub.network) :
    Beside key { f with hub := h } { g with hub := h' } where
  hub := hub
  planned := network ▸ beside.planned
  past := beside.past
  others := beside.others
  absent := beside.absent
  vain w hw := network ▸ beside.vain w hw
  addrs := beside.addrs

theorem moveTo (beside : Beside key f g) (t : Instant) :
    Beside key (f.moveTo t) (g.moveTo t) := by
  refine beside.withHub ?_ rfl
  have hub := beside.hub
  generalize g.hub = h' at hub
  cases hub with
  | vary own counted planned => exact .vary (h := { f.hub with now := t }) own counted planned

/-- Whether the bus has its own sender is left open. -/
theorem withSender (beside : Beside key f g) (own own' : Bool) :
    Beside key { f with hub := { f.hub with bus := f.hub.bus.withSender own } }
      { g with hub := { g.hub with bus := g.hub.bus.withSender own' } } := by
  refine beside.withHub ?_ rfl
  have hub := beside.hub
  generalize g.hub = h' at hub
  cases hub with
  | vary _ counted planned =>
    exact .vary (h := { f.hub with bus := f.hub.bus.withSender own }) own' counted planned

/-- A step of another worker, taken in both. -/
theorem afterStep (beside : Beside key f g) (wired : f.Wired) {slot : Nat} (other : slot ≠ key.slot)
    {w : Worker} {s s' : Step} (hw : f.workers[slot]? = some w) (hw' : g.workers[slot]? = some w)
    (step : w.step? f.hub = some s) (agree : s.AgreesBut key.addr s') :
    Beside key (f.afterStep slot s) (g.afterStep slot s') := by
  have addr := beside.addrs w (List.mem_of_getElem? hw')
  have kept := key_of_transition (transition_of_step? step)
  have plan : s.hub.network.plan key.addr = f.hub.network.plan key.addr :=
    plan_of_transition (transition_of_step? step) (wired.each slot w hw) (Ne.symm addr)
  refine ⟨agree.hub, ?_, ?_, fun i ne => ?_, ?_, fun v hv => ?_, fun v hv => ?_⟩
  · rw [Unreachable]
    show ∀ delay peer tuning, _ ∉ s.hub.network.plan key.addr
    rw [plan]
    exact beside.planned
  · simp only [Fleet.afterStep, agree.events, beside.hub.common.now, beside.past,
      List.filter_append, List.append_cancel_right_eq]
    rw [List.filter_eq_self.2]
    intro e he
    obtain ⟨x, -, rfl⟩ := List.mem_map.1 (List.mem_reverse.1 he)
    simpa using other
  · by_cases same : slot = i
    · subst same
      rw [workers_afterStep_self s hw, workers_afterStep_self s' hw', agree.worker]
    · rw [workers_afterStep_of_ne f s same, workers_afterStep_of_ne g s' same]
      exact beside.others i ne
  · rw [workers_afterStep_of_ne g s' other]
    exact beside.absent
  · rw [workers_afterStep_of_ne f s other] at hv
    obtain ⟨own, vain⟩ := beside.vain v hv
    refine ⟨own, vain.congr ?_⟩
    rw [own]
    exact plan
  · rcases List.mem_or_eq_of_mem_set hv with hv | rfl
    · exact beside.addrs v hv
    · rw [agree.worker, kept]
      exact addr

/-- The workers are told to stop. -/
theorem signal (beside : Beside key f g) : Beside key f.stop.closeAll.1 g.stop.closeAll.1 ∧
    g.stop.closeAll.2 = f.stop.closeAll.2 := by
  have registry := beside.hub.common.registry
  refine ⟨beside.withHub (?_ : f.stop.closeAll.1.hub.AgreesBut key.addr g.stop.closeAll.1.hub) rfl,
    ?_⟩
  · show Hub.AgreesBut key.addr
      { f.hub with tokens := f.hub.registry.closeAll (f.hub.tokens.cancel f.hub.stop) }
      { g.hub with tokens := g.hub.registry.closeAll (g.hub.tokens.cancel g.hub.stop) }
    have hub := beside.hub
    generalize g.hub = h' at hub
    cases hub with
    | vary own counted planned =>
      exact .vary
        (h := { f.hub with tokens := f.hub.registry.closeAll (f.hub.tokens.cancel f.hub.stop) })
        own counted planned
  · exact congrArg Registry.size registry

/-- A message is received from both, the same one. -/
theorem rel_receive? (beside : Beside key f g) :
    Option.Rel (fun r r' => r'.1 = r.1 ∧ Beside key r.2 r'.2) f.receive? g.receive? := by
  have bus := beside.hub.common.bus
  unfold receive?
  rw [bus, Bus.take?_withSender]
  cases f.hub.bus.take? with
  | none => exact .none
  | some taken =>
    refine .some ⟨rfl, beside.withHub ?_ rfl⟩
    have hub := beside.hub
    generalize g.hub = h' at hub
    cases hub with
    | vary own counted planned =>
      exact .vary (h := { f.hub with bus := taken.2 }) own counted planned

/-- The workers are started. -/
theorem spawn (beside : Beside key f g) {addrs : List String} (length : addrs.length = key.slot)
    (new : key.addr ∉ addrs) : Beside key (f.spawn (addrs ++ [key.addr])) (g.spawn addrs) := by
  have at_ : ∀ (f : Fleet) (addrs : List String) (slot : Nat),
      (f.spawn addrs).workers[slot]? = addrs[slot]?.map fun addr => { key := ⟨slot, addr⟩ } :=
    fun f addrs slot => List.getElem?_mapIdx
  refine ⟨beside.hub, beside.planned, beside.past, fun slot other => ?_, ?_, fun w hw => ?_,
    fun w hw => ?_⟩
  · rw [at_, at_]
    by_cases bound : slot < addrs.length
    · rw [List.getElem?_append_left bound]
    · rw [List.getElem?_eq_none (Nat.le_of_not_lt bound), List.getElem?_eq_none]
      simp only [List.length_append, List.length_singleton]
      omega
  · rw [at_, List.getElem?_eq_none (Nat.le_of_eq length)]
    rfl
  · rw [at_, ← length, List.getElem?_concat_length] at hw
    cases hw
    exact ⟨by rw [length], rfl, fun due peer tuning same => (by cases same), beside.planned⟩
  · obtain ⟨slot, hw⟩ := List.getElem?_of_mem hw
    rw [at_] at hw
    obtain ⟨addr, ha, rfl⟩ := Option.map_eq_some_iff.1 hw
    rintro rfl
    exact new (List.mem_of_getElem? ha)

/-- Any other worker takes the same step in both, or in neither. -/
theorem rel_stepWorker? (beside : Beside key f g) (wired : f.Wired) {slot : Nat}
    (other : slot ≠ key.slot) :
    Option.Rel (Beside key) (f.stepWorker? slot) (g.stepWorker? slot) := by
  unfold stepWorker?
  rw [beside.others slot other]
  cases hw : f.workers[slot]? with
  | none => exact .none
  | some w =>
    have hw' : g.workers[slot]? = some w := (beside.others slot other).trans hw
    have addr := beside.addrs w (List.mem_of_getElem? hw')
    have rel := Worker.rel_step? beside.hub addr
    dsimp only
    cases step : w.step? f.hub with
    | none =>
      rw [step] at rel
      generalize w.step? g.hub = r at rel
      cases rel
      exact .none
    | some s =>
      rw [step] at rel
      generalize w.step? g.hub = r at rel
      cases rel with
      | some agree => exact .some (beside.afterStep wired other hw hw' step agree)

/-- The other workers are those of other slots. -/
theorem mem_of_mem (beside : Beside key f g) (wired : f.Wired) {w : Worker} (hw : w ∈ g.workers) :
    w ∈ f.workers ∧ w.key.slot ≠ key.slot := by
  obtain ⟨slot, hs⟩ := List.getElem?_of_mem hw
  have other : slot ≠ key.slot := by
    rintro rfl
    rw [beside.absent] at hs
    cases hs
  rw [beside.others slot other] at hs
  exact ⟨List.mem_of_getElem? hs, by rw [wired.slots slot w hs]; exact other⟩

theorem mem_or_own (beside : Beside key f g) {w : Worker} (hw : w ∈ f.workers) :
    w ∈ g.workers ∨ f.workers[key.slot]? = some w := by
  obtain ⟨slot, hs⟩ := List.getElem?_of_mem hw
  by_cases own : slot = key.slot
  · exact .inr (own ▸ hs)
  · rw [← beside.others slot own] at hs
    exact .inl (List.mem_of_getElem? hs)

/-- Whether another worker waits is the same in both. -/
theorem waits_iff (beside : Beside key f g) {w : Worker} (hw : w ∈ g.workers) :
    w.step? g.hub = none ↔ w.step? f.hub = none := by
  have rel := Worker.rel_step? beside.hub (beside.addrs w hw)
  generalize w.step? f.hub = r at rel ⊢
  generalize w.step? g.hub = r' at rel ⊢
  cases rel <;> simp

/-- A step of the worker itself changes nothing for the others. -/
theorem stepOwn (beside : Beside key f g) (hf : f.stepWorker? key.slot = some f') :
    Beside key f' g := by
  obtain ⟨w, s, hw, hs, rfl⟩ := exists_of_stepWorker? hf
  obtain ⟨own, vain⟩ := beside.vain w hw
  have step := transition_of_step? hs
  obtain ⟨vain', agree, -⟩ := vain_of_transition step vain
  rw [own] at agree
  have kept := key_of_transition step
  refine ⟨agree.symm.trans beside.hub, ?_, ?_, fun slot other => ?_, beside.absent,
    fun v hv => ?_, beside.addrs⟩
  · have planned := vain'.planned
    rwa [kept, own] at planned
  · rw [beside.past]
    simp [Fleet.afterStep]
  · rw [workers_afterStep_of_ne f s (Ne.symm other)]
    exact beside.others slot other
  · rw [workers_afterStep_self s hw] at hv
    cases hv
    exact ⟨kept.trans own, vain'⟩

/-- The worker itself takes finitely many steps in a row, if it pauses after a failed dial or is to
stop. -/
theorem urge_stepOwn (beside : Beside key f g)
    (brief : 0 < g.hub.policy.reconnectDelay ∨ g.hub.stopping = true)
    (hf : f.stepWorker? key.slot = some f') : f'.urge key.slot < f.urge key.slot := by
  obtain ⟨w, s, hw, hs, rfl⟩ := exists_of_stepWorker? hf
  have step := transition_of_step? hs
  have common := beside.hub.common
  rw [common.policy, common.stopping] at brief
  obtain ⟨-, -, fewer⟩ := vain_of_transition step (beside.vain w hw).2
  have now : (f.afterStep key.slot s).hub.now = f.hub.now := (kept_of_transition step).now
  simp only [urge, workers_afterStep_self s hw, hw, now]
  exact fewer brief

end Beside

end FeedCapture.Fleet
