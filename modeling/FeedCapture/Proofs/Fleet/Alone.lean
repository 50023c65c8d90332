import FeedCapture.Proofs.Fleet.Stopping
import FeedCapture.Proofs.Worker.Solo
import Mathlib.Data.List.Nodup

/-!
# Workers that share a fleet

When no two workers have the same address and messages are received as soon as they are queued, a
worker of a fleet does what it does by itself: the steps of the others do not concern it, and by the
time the clock moves on it has got its place on the bus.

## Main definitions

* `Fleet.timeline` — what a worker did, without what it says of the registry
* `Fleet.solo` — a worker of a fleet by itself
* `Fleet.Orderly` — no two workers have the same address, and those with a message in hand are in
  line on the bus

The main statements say what the acts of a fleet are for a worker by itself.
-/

namespace FeedCapture.Fleet

open Worker

/-- What the worker in a slot did, without what it says of the registry; the latest first. -/
def timeline (f : Fleet) (slot : Nat) : List (Instant × Event) :=
  (f.log slot).filter fun e => !e.2.isNotice

/-- A worker of a fleet by itself. -/
def solo (f : Fleet) (w : Worker) : Solo := .of f.hub w (f.timeline w.key.slot)

/-- No two workers have the same address, somebody receives, those with a message in hand are in
line on the bus, and they have none when they are to stop. -/
structure Orderly (f : Fleet) : Prop where
  wired : f.Wired
  apart : ∀ {slot other : Nat} {w v : Worker}, f.workers[slot]? = some w →
    f.workers[other]? = some v → w.key.addr = v.key.addr → slot = other
  alive : f.hub.bus.receiving = true
  room : 0 < f.hub.bus.capacity
  tidy : f.hub.bus.Tidy
  nodup : f.hub.bus.line.Nodup
  line : ∀ slot, slot ∈ f.hub.bus.line ↔ f.inHand slot ≠ none
  tokens : f.hub.tokens.Clear ∨ f.Signalled ∧ ∀ slot, f.inHand slot = none

variable {f : Fleet} {slot : Nat} {w : Worker} {s : Worker.Step}

theorem inHand_eq (hw : f.workers[slot]? = some w) : f.inHand slot = w.phase.inHand := by
  simp [inHand, hw]

theorem inHand_afterStep_self (hw : f.workers[slot]? = some w) :
    (f.afterStep slot s).inHand slot = s.worker.phase.inHand :=
  inHand_eq (workers_afterStep_self s hw)

theorem inHand_afterStep_of_ne {other : Nat} (hne : slot ≠ other) :
    (f.afterStep slot s).inHand other = f.inHand other := by
  rw [inHand, inHand, workers_afterStep_of_ne f s hne]

theorem timeline_afterStep_self :
    (f.afterStep slot s).timeline slot = stamp f.hub.now s.events ++ f.timeline slot := by
  simp only [timeline, log_afterStep_self, List.filter_append, stamp, List.filter_reverse,
    List.filter_map, Function.comp_def]

theorem timeline_afterStep_of_ne {other : Nat} (hne : slot ≠ other) :
    (f.afterStep slot s).timeline other = f.timeline other := by
  rw [timeline, timeline, log_afterStep_of_ne hne]

/-- Once a fleet was told to stop, the stop token is cancelled. -/
theorem signalled_signal (f : Fleet) (known : f.hub.stop < f.hub.tokens.nodes.size) :
    f.stop.closeAll.1.Signalled :=
  (Registry.extends_closeAll _ _).fired (TokenTree.fired_cancel known)

namespace Orderly

theorem steady (h : f.Orderly) (hw : f.workers[slot]? = some w) : w.Steady f.hub := by
  rcases h.tokens with clear | ⟨fired, none⟩
  · exact .inl clear
  · exact .inr ⟨fired, by rw [← inHand_eq hw, none]⟩

/-- Workers that are told to stop take no more messages. -/
theorem tokens_afterStep (h : f.Orderly) (hw : f.workers[slot]? = some w)
    (step : Transition f.hub w s) :
    s.hub.tokens.Clear ∨
      (f.afterStep slot s).Signalled ∧ ∀ other, (f.afterStep slot s).inHand other = none := by
  have wired := h.wired.each slot w hw
  rcases h.tokens with clear | ⟨fired, none⟩
  · exact .inl (clear_of_transition step wired clear)
  · right
    have mild := (wired_of_transition step wired h.wired.stop).2
    refine ⟨?_, fun other => ?_⟩
    · show s.hub.tokens.Fired s.hub.stop
      rw [mild.stop]
      exact mild.tokens.fired fired
    · by_cases hne : slot = other
      · subst hne
        rw [inHand_afterStep_self hw]
        have closer := (stops_of_transition step wired fired).1
        have most := leftToStop_le_two w.phase
        cases phase : s.worker.phase with
        | delivering link m =>
          rw [phase] at closer
          have three : 2 + 1 = w.phase.leftToStop := closer
          omega
        | _ => rfl
      · rw [inHand_afterStep_of_ne hne, none]

/-- A step of a worker keeps a fleet orderly. -/
theorem step (h : f.Orderly) (hw : f.workers[slot]? = some w) (hs : w.step? f.hub = some s) :
    (f.afterStep slot s).Orderly := by
  have step := transition_of_step? hs
  have kept := kept_of_transition step
  have own := h.wired.slots slot w hw
  obtain ⟨tidy, lines⟩ := lines_of_transition step h.alive h.tidy
  have held : w.key.slot ∈ f.hub.bus.line ↔ w.phase.inHand ≠ none := by
    rw [own, ← inHand_eq hw, h.line]
  have stepped : f.stepWorker? slot = some (f.afterStep slot s) := by
    simp [Fleet.stepWorker?, hw, hs]
  refine ⟨h.wired.stepWorker? stepped, fun hv hv' same => ?_, kept.receiving.trans h.alive, ?_,
    tidy, lines.nodup h.nodup held, fun other => ?_, h.tokens_afterStep hw step⟩
  · obtain ⟨u, hu, key⟩ := exists_key_eq_of_afterStep hw step hv
    obtain ⟨u', hu', key'⟩ := exists_key_eq_of_afterStep hw step hv'
    exact h.apart hu hu' (by rw [key, key', same])
  · show 0 < s.hub.bus.capacity
    rw [kept.capacity]
    exact h.room
  · show other ∈ s.hub.bus.line ↔ _
    by_cases hne : slot = other
    · subst hne
      have mem := lines.mem_iff_self h.nodup held
      rwa [own, ← inHand_afterStep_self hw] at mem
    · rw [inHand_afterStep_of_ne hne, ← h.line]
      exact lines.mem_iff_of_ne h.nodup (by rw [own]; exact Ne.symm hne)

/-- What leaves workers and tokens alone and does not touch the line on the bus. -/
theorem withHub (h : f.Orderly) {hub : Hub} (wired : Wired { f with hub })
    (stop : hub.stop = f.hub.stop) (tokens : hub.tokens = f.hub.tokens)
    (receiving : hub.bus.receiving = f.hub.bus.receiving)
    (capacity : hub.bus.capacity = f.hub.bus.capacity) (line : hub.bus.line = f.hub.bus.line)
    (tidy : hub.bus.Tidy) : Orderly { f with hub } where
  wired := wired
  apart := h.apart
  alive := receiving.trans h.alive
  room := by
    show 0 < hub.bus.capacity
    rw [capacity]
    exact h.room
  tidy := tidy
  nodup := by
    show hub.bus.line.Nodup
    rw [line]
    exact h.nodup
  line slot := by
    show slot ∈ hub.bus.line ↔ _
    rw [line]
    exact h.line slot
  tokens := by
    rcases h.tokens with clear | ⟨fired, none⟩
    · exact .inl (tokens ▸ clear)
    · refine .inr ⟨?_, none⟩
      show hub.tokens.Fired hub.stop
      rw [tokens, stop]
      exact fired

theorem moveTo (h : f.Orderly) (t : Instant) : (f.moveTo t).Orderly :=
  h.withHub (h.wired.withHub rfl (.refl _) rfl) rfl rfl rfl rfl rfl h.tidy

theorem closeBus (h : f.Orderly) : f.closeBus.1.Orderly :=
  h.withHub h.wired.closedBus rfl rfl rfl rfl rfl ⟨h.tidy.bounded, h.tidy.packed⟩

theorem receive (h : f.Orderly) {m : Message} {bus : Bus Nat}
    (taken : f.hub.bus.take? = some (m, bus)) : Orderly { f with hub := { f.hub with bus } } := by
  obtain ⟨capacity, receiving, -⟩ := Bus.frame_of_take? taken
  exact h.withHub (h.wired.withHub rfl (.refl _) rfl) rfl rfl receiving capacity
    (Bus.line_of_take? taken) (h.tidy.take? taken)

/-- When everybody waits and nothing is queued, nobody has a message in hand: the first in line
would have got a place. -/
theorem inHand_eq_none (h : f.Orderly) (still : f.canStep = false)
    (empty : f.hub.bus.queue = []) (slot : Nat) : f.inHand slot = none := by
  rcases h.tokens with clear | ⟨-, none⟩
  · by_contra held
    have mem := (h.line slot).2 held
    obtain ⟨first, granted⟩ : ∃ first, first ∈ f.hub.bus.granted := by
      refine List.exists_mem_of_ne_nil _ fun none => ?_
      have parked : f.hub.bus.parked ≠ [] := by
        intro c
        simp [Bus.line, none, c] at mem
      have full := h.tidy.packed parked
      have room := h.room
      simp only [empty, none, List.length_nil] at full
      omega
    have waiting := (h.line first).1 (List.mem_append_left _ granted)
    obtain ⟨w, hw, m, hand⟩ : ∃ w, f.workers[first]? = some w ∧ ∃ m, w.phase.inHand = some m := by
      simpa [inHand, Option.bind_eq_some_iff, Option.ne_none_iff_exists'] using waiting
    cases phase : w.phase with
    | delivering link m =>
      have can : (w.step? f.hub).isSome = true := by
        have close := TokenTree.isCancelled_of_clear clear link.close
        simp [step?, phase, close, Bus.claim, h.alive, h.wired.slots first w hw, granted]
      have able : f.canStep = true := List.any_eq_true.2 ⟨w, List.mem_of_getElem? hw, can⟩
      rw [still] at able
      cases able
    | _ => simp [phase, Phase.inHand] at hand
  · exact none slot

/-- A fleet may be stopped when nobody has a message in hand. -/
theorem signal (h : f.Orderly) (none : ∀ slot, f.inHand slot = none) :
    f.stop.closeAll.1.Orderly where
  wired := h.wired.stopped.closedAll
  apart := h.apart
  alive := h.alive
  room := h.room
  tidy := h.tidy
  nodup := h.nodup
  line := h.line
  tokens := .inr ⟨f.signalled_signal h.wired.stop, none⟩

/-! ## A worker by itself -/

/-- A step of a worker is its next step, or completes a delivery. -/
theorem solo_step (h : f.Orderly) (hw : f.workers[slot]? = some w) (hs : w.step? f.hub = some s) :
    (f.afterStep slot s).solo s.worker = f.solo w ∨
      (f.solo w).next? = some ((f.afterStep slot s).solo s.worker) := by
  have step := transition_of_step? hs
  have reach : (f.afterStep slot s).solo s.worker =
      Solo.reach (f.timeline w.key.slot) f.hub.now s := by
    simp only [solo, Solo.reach, key_of_transition step, h.wired.slots slot w hw,
      timeline_afterStep_self]
    rfl
  rw [reach]
  exact Solo.next?_of_transition step (h.wired.each slot w hw) h.alive (h.steady hw)

/-- A step of another worker makes no difference. -/
theorem solo_step_of_ne (h : f.Orderly) (hw : f.workers[slot]? = some w)
    (hs : w.step? f.hub = some s) {other : Nat} {v : Worker} (hv : f.workers[other]? = some v)
    (hne : slot ≠ other) : (f.afterStep slot s).solo v = f.solo v := by
  have step := transition_of_step? hs
  have kept := kept_of_transition step
  have stopping : s.hub.stopping = f.hub.stopping :=
    stopping_of_transition step (h.wired.each slot w hw) h.wired.stop
      (h.tokens.imp id fun signalled => signalled.1)
  have plan : s.hub.network.plan v.key.addr = f.hub.network.plan v.key.addr :=
    plan_of_transition step (h.wired.each slot w hw) fun same => hne (h.apart hw hv same.symm)
  have own : slot ≠ v.key.slot := by rwa [h.wired.slots other v hv]
  rw [solo, timeline_afterStep_of_ne own]
  exact Solo.of_congr (Hub.alone_congr _ kept.policy kept.now kept.epoch stopping plan)

/-- When the clock moves on, the worker waits instant by instant. -/
theorem solo_moveTo (h : f.Orderly) {t : Instant} (can : f.canPass t = true)
    (empty : f.hub.bus.queue = []) (hw : f.workers[slot]? = some w) :
    Solo.advance^[t - f.hub.now] (f.solo w) = (f.moveTo t).solo w := by
  simp only [canPass, Bool.and_eq_true, decide_eq_true_eq, Bool.not_eq_true'] at can
  obtain ⟨⟨later, still⟩, early⟩ := can
  have mem := List.mem_of_getElem? hw
  have hand : w.phase.inHand = none := by rw [← inHand_eq hw, h.inHand_eq_none still empty]
  have waits : w.step? f.hub = none := by
    have := List.any_eq_false.1 still w mem
    simpa using this
  have reach : f.hub.now + (t - f.hub.now) = t := Nat.add_sub_cancel' later
  have soon : ∀ wake, w.wakeAt = some wake → f.hub.now + (t - f.hub.now) ≤ wake := by
    intro wake hwake
    obtain ⟨first, some, le⟩ := exists_wakeAt_le mem hwake
    rw [some] at early
    rw [reach]
    exact Nat.le_trans (by simpa using early) le
  have passed : Solo.advance^[t - f.hub.now] (f.solo w) = _ :=
    Solo.iterate_advance_of_waits waits hand (h.wired.each slot w hw) (h.steady hw) _ soon
  rw [reach] at passed
  exact passed

/-- The signal to stop. -/
theorem solo_signal (h : f.Orderly) (w : Worker) :
    f.stop.closeAll.1.solo w = (f.solo w).signalled := by
  have stopping : f.stop.closeAll.1.hub.stopping = true :=
    TokenTree.isCancelled_of_fired (f.signalled_signal h.wired.stop)
  have alone : f.stop.closeAll.1.hub.alone w.key.addr =
      { f.hub.alone w.key.addr with tokens := ⟨#[⟨none, true⟩]⟩ } := by
    simp only [Hub.alone, stopping]
    rfl
  simp only [solo, Solo.of, alone, Solo.signalled]
  rfl

end Orderly

/-- Each worker goes on by itself, or not at all. -/
def Onward (f g : Fleet) : Prop :=
  ∀ (slot : Nat) (w : Worker), f.workers[slot]? = some w → ∃ (v : Worker) (n : Nat),
    g.workers[slot]? = some v ∧ v.key = w.key ∧ Solo.advance^[n] (f.solo w) = g.solo v

/-- What concerns no worker. -/
theorem onward_withHub (f : Fleet) {hub : Hub}
    (alone : ∀ addr, hub.alone addr = f.hub.alone addr) : Onward f { f with hub } :=
  fun _ w hw => ⟨w, 0, hw, rfl, (Solo.of_congr (alone _)).symm⟩

theorem Orderly.onward_step (h : f.Orderly) (hw : f.workers[slot]? = some w)
    (hs : w.step? f.hub = some s) : Onward f (f.afterStep slot s) := by
  intro other v hv
  by_cases hne : slot = other
  · subst hne
    obtain rfl : w = v := by simpa [hw] using hv
    have key := key_of_transition (transition_of_step? hs)
    rcases h.solo_step hw hs with same | next
    · exact ⟨s.worker, 0, workers_afterStep_self s hw, key, same.symm⟩
    · refine ⟨s.worker, 1, workers_afterStep_self s hw, key, ?_⟩
      rw [Function.iterate_one, Solo.advance, next, Option.getD_some]
  · refine ⟨v, 0, ?_, rfl, (h.solo_step_of_ne hw hs hv hne).symm⟩
    rw [workers_afterStep_of_ne f s hne, hv]

/-- What can happen to a fleet while nobody is kept waiting and no worker is told anything. -/
inductive Goes (f : Fleet) : Fleet → Prop
  | rests : Goes f f
  | closesBus : Goes f f.closeBus.1
  | steps {slot : Nat} {w : Worker} {s : Worker.Step} (worker : f.workers[slot]? = some w)
      (step : w.step? f.hub = some s) : Goes f (f.afterStep slot s)
  | receives {m : Message} {bus : Bus Nat} (taken : f.hub.bus.take? = some (m, bus)) :
      Goes f { f with hub := { f.hub with bus } }
  | passes {t : Instant} (can : f.canPass t = true) (empty : f.hub.bus.queue = []) :
      Goes f (f.moveTo t)

/-- Without workers nothing is done. -/
theorem Goes.idle {g : Fleet} (goes : f.Goes g) (none : f.workers = []) :
    g.workers = [] ∧ g.past = f.past := by
  cases goes with
  | steps worker step => simp [none] at worker
  | _ => exact ⟨none, rfl⟩

/-- Whatever happens, an orderly fleet stays so, and each worker goes on by itself. -/
theorem Orderly.goes {g : Fleet} (h : f.Orderly) (goes : f.Goes g) : g.Orderly ∧ Onward f g := by
  cases goes with
  | rests => exact ⟨h, onward_withHub f fun _ => rfl⟩
  | closesBus => exact ⟨h.closeBus, onward_withHub f fun _ => rfl⟩
  | steps worker step => exact ⟨h.step worker step, h.onward_step worker step⟩
  | receives taken => exact ⟨h.receive taken, onward_withHub f fun _ => rfl⟩
  | passes can empty =>
    exact ⟨h.moveTo _, fun _ w hw => ⟨w, _, hw, rfl, h.solo_moveTo can empty hw⟩⟩

/-- The worker in a slot has come by itself from some state to where it is. -/
def Tracks (f : Fleet) (slot : Nat) (addr : String) (start : Solo) : Prop :=
  ∃ w n, f.workers[slot]? = some w ∧ w.key.addr = addr ∧ Solo.advance^[n] start = f.solo w

theorem Tracks.onward {g : Fleet} {addr : String} {start : Solo} (h : f.Tracks slot addr start)
    (onward : Onward f g) : g.Tracks slot addr start := by
  obtain ⟨w, n, hw, source, came⟩ := h
  obtain ⟨v, m, hv, key, goes⟩ := onward slot w hw
  exact ⟨v, m + n, hv, by rw [key, source], by rw [Function.iterate_add_apply, came, goes]⟩

/-! ## New workers -/

section

variable {policy : Policy} {network : Network} {capacity : Nat} {own counting : Bool}
  {sources : List String} {t : Instant}

/-- A fleet without workers around an empty bus. -/
def vacant (policy : Policy) (network : Network) (capacity : Nat) (own counting : Bool)
    (t : Instant) : Fleet :=
  (create policy network { capacity, ownSender := own } counting false).moveTo t

/-- Nothing happens in a fleet without workers. -/
theorem exists_vacant_of_goes {g : Fleet}
    (goes : (vacant policy network capacity own counting t).Goes g) :
    ∃ own' t', g = vacant policy network capacity own' counting t' := by
  cases goes with
  | rests => exact ⟨own, t, rfl⟩
  | closesBus => exact ⟨false, t, rfl⟩
  | steps worker step => cases worker
  | receives taken => cases taken
  | @passes t' can empty => exact ⟨own, t', rfl⟩

theorem orderly_spawn (distinct : sources.Nodup) (room : 0 < capacity) :
    ((vacant policy network capacity own counting t).spawn sources).Orderly where
  wired := by
    have wired := wired_create policy network { capacity, ownSender := own } counting false
    have moved : (vacant policy network capacity own counting t).Wired :=
      wired.withHub rfl (.refl _) rfl
    exact moved.spawn rfl sources
  apart {slot other w v} hw hv same := by
    obtain ⟨addr, known, rfl⟩ := Option.map_eq_some_iff.1 (List.getElem?_mapIdx ▸ hw)
    obtain ⟨addr', known', rfl⟩ := Option.map_eq_some_iff.1 (List.getElem?_mapIdx ▸ hv)
    obtain ⟨_, rfl⟩ := List.getElem?_eq_some_iff.1 known
    obtain ⟨_, rfl⟩ := List.getElem?_eq_some_iff.1 known'
    exact (List.Nodup.getElem_inj_iff distinct).1 same
  alive := rfl
  room := room
  tidy := ⟨Nat.zero_le _, fun c => absurd rfl c⟩
  nodup := List.nodup_nil
  line slot := by
    have none : ((vacant policy network capacity own counting t).spawn sources).inHand slot =
        none := by
      simp only [inHand, spawn, List.getElem?_mapIdx]
      cases sources[slot]? <;> rfl
    have empty : ((vacant policy network capacity own counting t).spawn sources).hub.bus.line =
        [] := rfl
    simp [none, empty]
  tokens := .inl TokenTree.clear_fresh

/-- A new worker is as it is by itself. -/
theorem tracks_spawn {slot : Nat} {addr : String} (known : sources[slot]? = some addr) :
    ((vacant policy network capacity own counting t).spawn sources).Tracks slot addr
      (.new policy (network.plan addr) addr t) := by
  refine ⟨{ key := ⟨slot, addr⟩ }, 0, by simp [spawn, known], rfl, ?_⟩
  have going : (vacant policy network capacity own counting t).hub.stopping = false :=
    TokenTree.isCancelled_of_clear TokenTree.clear_fresh _
  have alone : (vacant policy network capacity own counting t).hub.alone addr =
      (Solo.new policy (network.plan addr) addr t).hub := by
    simp only [Hub.alone, going]
    rfl
  exact (congrArg (fun hub => Solo.mk hub { key := ⟨0, addr⟩ } []) alone).symm

end

end FeedCapture.Fleet
