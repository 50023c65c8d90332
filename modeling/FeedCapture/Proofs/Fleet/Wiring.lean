import FeedCapture.Fleet.Run
import FeedCapture.Proofs.Registry.Closing
import FeedCapture.Proofs.Worker.Wiring

/-!
# The wiring of a fleet

In every run of a fleet the registry has one entry for each worker that has a connection, under its
key and with the token that closes the connection, and no other entry.

## Main definitions

* `Fleet.Wired` — every worker is wired, and every entry belongs to a worker

The main statement says that nothing that can happen to a fleet breaks its wiring (`Wired.act`).
-/

namespace FeedCapture.Fleet

open Worker

/-- Every worker is wired, and every entry of the registry belongs to a worker. -/
structure Wired (f : Fleet) : Prop where
  stop : f.hub.stop < f.hub.tokens.nodes.size
  slots : ∀ (slot : Nat) (w : Worker), f.workers[slot]? = some w → w.key.slot = slot
  each : ∀ (slot : Nat) (w : Worker), f.workers[slot]? = some w → w.Wired f.hub
  owned : ∀ key ∈ f.hub.registry.keys, ∃ w : Worker, f.workers[key.slot]? = some w ∧ w.key = key
  nodup : f.hub.registry.keys.Nodup

/-- Workers keep their keys. -/
theorem exists_key_eq_of_afterStep {f : Fleet} {slot other : Nat} {w v : Worker} {s : Worker.Step}
    (hw : f.workers[slot]? = some w) (step : Transition f.hub w s)
    (hv : (f.afterStep slot s).workers[other]? = some v) :
    ∃ u : Worker, f.workers[other]? = some u ∧ u.key = v.key := by
  by_cases hne : slot = other
  · subst hne
    obtain rfl : s.worker = v := by simpa [workers_afterStep_self s hw] using hv
    exact ⟨w, hw, (key_of_transition step).symm⟩
  · exact ⟨v, by rwa [workers_afterStep_of_ne f s hne] at hv, rfl⟩

/-- A new fleet is wired: no worker has a connection. -/
theorem wired_create (policy : Policy) (network : Network) (bus : Bus Nat) (counting spare : Bool) :
    (create policy network bus counting spare).Wired where
  stop := Nat.zero_lt_one
  slots _ _ hw := by cases hw
  each _ _ hw := by cases hw
  owned _ hk := by cases hk
  nodup := List.nodup_nil

namespace Wired

variable {f g : Fleet}

/-- New workers are wired: none of them has a connection. -/
theorem spawn (h : f.Wired) (none : f.workers = []) (addrs : List String) :
    (f.spawn addrs).Wired := by
  have empty : f.hub.registry.keys = [] := by
    rw [List.eq_nil_iff_forall_not_mem]
    intro key hk
    obtain ⟨w, hw, -⟩ := h.owned key hk
    simp [none] at hw
  have fresh : ∀ (slot : Nat) (w : Worker), (f.spawn addrs).workers[slot]? = some w →
      w.key.slot = slot ∧ w.phase = .ready := by
    intro slot w hw
    simp only [Fleet.spawn, List.getElem?_mapIdx, Option.map_eq_some_iff] at hw
    obtain ⟨addr, -, rfl⟩ := hw
    exact ⟨rfl, rfl⟩
  refine ⟨h.stop, fun slot w hw => (fresh slot w hw).1, fun slot w hw => ?_, ?_, h.nodup⟩
  · have ready := (fresh slot w hw).2
    constructor
    · intro link hl
      rw [ready] at hl
      cases hl
    · rw [ready]
      cases found : f.hub.registry.get? w.key with
      | none => exact found
      | some close =>
        have := Registry.mem_keys_of_get? found
        simp [empty] at this
  · intro key hk
    have : key ∈ f.hub.registry.keys := hk
    simp [empty] at this

/-- A step of a worker keeps a fleet wired. -/
theorem stepWorker? {slot : Nat} (h : f.Wired) (hg : f.stepWorker? slot = some g) : g.Wired := by
  obtain ⟨w, s, hw, hs, rfl⟩ := exists_of_stepWorker? hg
  have step := transition_of_step? hs
  obtain ⟨wired, mild⟩ := wired_of_transition step (h.each slot w hw) h.stop
  have key := key_of_transition step
  have self := workers_afterStep_self s hw
  refine ⟨?_, ?_, ?_, ?_, mild.registry.nodup h.nodup⟩
  · show s.hub.stop < s.hub.tokens.nodes.size
    rw [mild.stop]
    exact Nat.lt_of_lt_of_le h.stop mild.tokens.size_le
  · intro other v hv
    obtain ⟨u, hu, key⟩ := exists_key_eq_of_afterStep hw step hv
    rw [← key]
    exact h.slots other u hu
  · intro other v hv
    by_cases hne : slot = other
    · subst hne
      obtain rfl : s.worker = v := by simpa [self] using hv
      exact wired
    · rw [workers_afterStep_of_ne f s hne] at hv
      refine (h.each other v hv).of_mild mild fun same => hne ?_
      rw [← h.slots slot w hw, ← h.slots other v hv, same]
  · intro k hk
    rcases mild.registry.keys k hk with rfl | hk
    · exact ⟨s.worker, by rw [h.slots slot w hw, self], key⟩
    · obtain ⟨v, hv, rfl⟩ := h.owned k hk
      by_cases hne : slot = v.key.slot
      · obtain rfl : w = v := by simpa [hne, hv] using hw.symm
        exact ⟨s.worker, by rw [← hne, self], key⟩
      · exact ⟨v, by rw [workers_afterStep_of_ne f s hne, hv], rfl⟩

/-- What leaves the workers and the registry alone and takes no cancellation back keeps a fleet
wired. -/
theorem withHub (h : f.Wired) {hub : Hub} (stop : hub.stop = f.hub.stop)
    (tokens : f.hub.tokens.Extends hub.tokens) (registry : hub.registry = f.hub.registry) :
    Wired { f with hub } where
  stop := by
    show hub.stop < hub.tokens.nodes.size
    rw [stop]
    exact Nat.lt_of_lt_of_le h.stop tokens.size_le
  slots := h.slots
  each slot w hw := by
    have wired := h.each slot w hw
    refine ⟨fun link hl => ?_, by rw [← wired.entry, ← registry]⟩
    show hub.tokens.ChildOf link.close hub.stop
    rw [stop]
    exact tokens.childOf (wired.close link hl)
  owned key hk := h.owned key (registry ▸ hk)
  nodup := registry ▸ h.nodup

theorem stopped (h : f.Wired) : f.stop.Wired := h.withHub rfl (.cancel _ _) rfl

theorem closedAll (h : f.Wired) : f.closeAll.1.Wired :=
  h.withHub rfl (Registry.extends_closeAll _ _) rfl

theorem closedBus (h : f.Wired) : f.closeBus.1.Wired := h.withHub rfl (.refl _) rfl

/-- Nothing that can happen to a fleet breaks its wiring. -/
theorem act {a : Act} (h : f.Wired) (ha : f.act? a = some g) : g.Wired := by
  cases change_of_act? ha with
  | step => exact h.stepWorker? ha
  | stop => exact h.stopped
  | closeAll => exact h.closedAll
  | closeBus => exact h.closedBus
  | receive => exact h.withHub rfl (.refl _) rfl
  | dropReceivers => exact h.withHub rfl (.refl _) rfl
  | clock => exact h.withHub rfl (.refl _) rfl

/-- Every entry is that of the connection of a worker. -/
theorem open_of_mem_entries (h : f.Wired) {e : SourceKey × Token}
    (he : e ∈ f.hub.registry.entries) :
    ∃ w link, f.workers[e.1.slot]? = some w ∧ w.key = e.1 ∧ w.phase.open? = some link ∧
      link.close = e.2 := by
  obtain ⟨w, hw, key⟩ := h.owned e.1 (List.mem_map_of_mem he)
  have found := Registry.get?_of_mem h.nodup he
  rw [← key, (h.each _ w hw).entry, Option.map_eq_some_iff] at found
  obtain ⟨link, hl, close⟩ := found
  exact ⟨w, link, hw, key, hl, close⟩

end Wired

end FeedCapture.Fleet
