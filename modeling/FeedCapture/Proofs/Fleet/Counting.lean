import FeedCapture.Proofs.Fleet.Fidelity
import FeedCapture.Proofs.Worker.Sharing
import Mathlib.Algebra.BigOperators.Group.List.Basic
import Mathlib.Algebra.Order.Ring.Nat
import Mathlib.Data.List.Dedup

/-!
# The counters of messages

Every message on the bus is counted under the address of the worker that put it there, and nothing
else is: the counters are what the messages on the bus add up to.

## Main definitions

* `Series.tally` — counters that count some messages more
* `Fleet.Counted` — the counters of a fleet agree with its history

The main statements are `Fleet.Counted.act`, `Series.get_tally` and `Series.sum_get_tally`.
-/

namespace FeedCapture

/-! ## Series that count messages -/

/-- The counters after some messages were counted under their sources. -/
def Series.tally (c : Series) (ms : List Message) : Series :=
  ms.foldl (fun c m => c.add m.source 1) c

namespace Series

theorem tally_append (c : Series) (xs ys : List Message) :
    c.tally (xs ++ ys) = (c.tally xs).tally ys :=
  List.foldl_append ..

/-- A counter counts the messages of its source, up to 64 bits. -/
theorem get_tally (c : Series) (ms : List Message) (label : String)
    (word : c.get label < UInt64.size) :
    (c.tally ms).get label = (c.get label + ms.countP fun m => m.source = label) % UInt64.size := by
  induction ms generalizing c with
  | nil => simpa [tally] using (Nat.mod_eq_of_lt word).symm
  | cons m ms ih =>
    show ((c.add m.source 1).tally ms).get label = _
    by_cases same : m.source = label
    · subst same
      have fits : (c.add m.source 1).get m.source < UInt64.size := by
        rw [get_add_self]
        exact Nat.mod_lt _ (by decide)
      rw [ih _ fits, get_add_self, Nat.mod_add_mod, List.countP_cons_of_pos (by simp)]
      congr 1
      omega
    · have other := get_add_of_ne c 1 (Ne.symm same)
      rw [ih _ (by rwa [other]), other, List.countP_cons_of_neg (by simpa using same)]

theorem get_tally_new (ms : List Message) (label : String) :
    (tally {} ms).get label = (ms.countP fun m => m.source = label) % UInt64.size := by
  have zero : ({} : Series).get label = 0 := rfl
  rw [get_tally _ _ _ (by rw [zero]; decide), zero, Nat.zero_add]

theorem sum_ite_eq_count (labels : List String) (source : String) :
    (labels.map fun label => if source = label then 1 else 0).sum = labels.count source := by
  induction labels with
  | nil => rfl
  | cons label labels ih =>
    rw [List.map_cons, List.sum_cons, ih, List.count_cons]
    by_cases same : source = label
    · simp [same, Nat.add_comm]
    · simp [same, Ne.symm same]

/-- Each message is counted under one label. -/
theorem sum_countP_eq_length {labels : List String} (nodup : labels.Nodup) {ms : List Message}
    (known : ∀ m ∈ ms, m.source ∈ labels) :
    (labels.map fun label => ms.countP fun m => m.source = label).sum = ms.length := by
  induction ms with
  | nil => simp
  | cons m ms ih =>
    have one : (labels.map fun label => if m.source = label then 1 else 0).sum = 1 := by
      rw [sum_ite_eq_count, List.count_eq_one_of_mem nodup (known m (by simp))]
    have split : ∀ label, (m :: ms).countP (fun m => m.source = label) =
        ms.countP (fun m => m.source = label) + if m.source = label then 1 else 0 := by
      intro label
      simp [List.countP_cons]
    simp only [split, List.sum_map_add, ih fun m hm => known m (by simp [hm]), one,
      List.length_cons]

/-- The counters of some messages add up to their number, up to 64 bits. -/
theorem sum_get_tally_mod {labels : List String} {ms : List Message}
    (known : ∀ m ∈ ms, m.source ∈ labels) :
    (labels.dedup.map (tally {} ms).get).sum % UInt64.size = ms.length % UInt64.size := by
  have counts := sum_countP_eq_length (List.nodup_dedup labels)
    fun m hm => List.mem_dedup.2 (known m hm)
  rw [← counts, List.sum_nat_mod (labels.dedup.map fun label => ms.countP _), List.map_map,
    funext (get_tally_new ms)]
  rfl

/-- Counters that do not wrap around add up to the number of the messages. -/
theorem sum_get_tally {labels : List String} {ms : List Message}
    (known : ∀ m ∈ ms, m.source ∈ labels) (few : ms.length < UInt64.size) :
    (labels.dedup.map (tally {} ms).get).sum = ms.length := by
  have counts : ∀ label, (tally {} ms).get label = ms.countP fun m => m.source = label := by
    intro label
    rw [get_tally_new]
    exact Nat.mod_eq_of_lt (Nat.lt_of_le_of_lt List.countP_le_length few)
  rw [funext counts]
  exact sum_countP_eq_length (List.nodup_dedup labels) fun m hm => List.mem_dedup.2 (known m hm)

end Series

/-! ## Workers -/

namespace Worker

open Transport

variable {h : Hub} {w : Worker} {s : Step}

/-- What does not concern messages leaves their counters alone. -/
theorem messages_count (h : Hub) {f : Metrics → Metrics}
    (same : ∀ m, (f m).messages = m.messages) :
    (h.count f).metrics.messages = h.metrics.messages := by
  unfold Hub.count
  split
  · exact same _
  · rfl

/-- A step counts the messages that it puts on the bus, and these, as well as what the worker has in
hand, come from the worker's source. -/
structure Tallies (h : Hub) (w : Worker) (s : Step) : Prop where
  counts : s.hub.metrics.messages = h.metrics.messages.tally s.messages
  sent : ∀ m ∈ s.messages, m.source = w.key.addr
  hand : ∀ m ∈ s.worker.phase.inHand, m.source = w.key.addr

theorem Tallies.of_quiet (messages : s.messages = [])
    (same : s.hub.metrics.messages = h.metrics.messages)
    (hand : s.worker.phase.inHand = none) : Tallies h w s where
  counts := by rw [messages, same]; rfl
  sent m hm := by simp [messages] at hm
  hand m hm := by simp [hand] at hm

theorem tallies_leave (h : Hub) (w : Worker) (bus : Bus Nat) (reason : ReadExit) :
    Tallies h w (leave { h with bus } w reason) := by
  refine .of_quiet (messages_leave _ w reason) ?_ (inHand_of_open? (open?_leave _ w reason))
  unfold leave
  dsimp only
  split <;> exact messages_count _ fun _ => rfl

theorem tallies_delivered (counting : h.counting = true) (bus : Bus Nat) (link : Link)
    {m : Message} (source : m.source = w.key.addr) :
    Tallies h w (delivered { h with bus } w link m) where
  counts := by
    rw [messages_delivered]
    simp [delivered, Hub.count, counting, Series.tally, Metrics.recordMessage, source]
  sent m' hm := by
    rw [messages_delivered, List.mem_singleton] at hm
    rw [hm, source]
  hand m' hm := by cases hm

theorem Tallies.after {e : Event} (t : Tallies h w s) (quiet : e.message? = none) :
    Tallies h w (s.after e) where
  counts := by rw [messages_after]; simpa [quiet] using t.counts
  sent := by rw [messages_after]; simpa [quiet] using t.sent
  hand := t.hand

/-- Every step counts what it puts on the bus. -/
theorem tallies_of_transition (step : Transition h w s) (counting : h.counting = true)
    (hand : ∀ m ∈ w.phase.inHand, m.source = w.key.addr) : Tallies h w s := by
  cases step with
  | halt idle stopping =>
    exact .of_quiet (messages_of_quiet (quiet_stop h w)) rfl rfl
  | dial phase going =>
    refine .of_quiet (messages_of_quiet (quiet_begin h w)) ?_ (inHand_of_open? (open?_begin h w))
    rw [hub_begin h w going]
  | refused phase going passed =>
    exact .after (.of_quiet (messages_of_quiet (quiet_failDial h w _))
      (messages_count _ fun _ => rfl) rfl) rfl
  | dialBroke phase going passed =>
    exact .after (.of_quiet (messages_of_quiet (quiet_crash h w _)) rfl rfl) rfl
  | connected phase going passed =>
    exact .after (.of_quiet (messages_of_quiet (quiet_connect h w _ _))
      (messages_count _ fun _ => rfl) rfl) rfl
  | retry phase going passed => exact .of_quiet rfl rfl rfl
  | closed phase close => exact tallies_leave h w h.bus _
  | eof phase going read => exact (tallies_leave h w h.bus _).after rfl
  | failed phase going read => exact (tallies_leave h w h.bus _).after rfl
  | readBroke phase going read =>
    exact .after (.of_quiet (messages_of_quiet (quiet_crash h w _)) rfl rfl) rfl
  | queued phase going read offer => exact (tallies_delivered counting _ _ rfl).after rfl
  | parked phase going read offer =>
    exact ⟨rfl, fun m hm => (by cases hm), fun m hm => by cases hm; rfl⟩
  | unwanted phase going read offer => exact ((tallies_leave h w h.bus _).after rfl).after rfl
  | idle phase going read passed stale => exact tallies_leave h w h.bus _
  | silent phase going read passed fresh => exact .of_quiet rfl rfl rfl
  | givenUp phase close => exact (tallies_leave h w _ _).after rfl
  | abandoned phase going claim => exact (tallies_leave h w _ _).after rfl
  | @handedOver link m bus phase going claim =>
    exact tallies_delivered counting bus link (hand m (by rw [phase]; rfl))

end Worker

/-! ## Fleets -/

namespace Fleet

open Worker

/-- The counters of a fleet agree with its history: the messages on the bus come from its sources
and are counted. -/
structure Counted (sources : List String) (f : Fleet) : Prop where
  counting : f.hub.counting = true
  tally : f.hub.metrics.messages = Series.tally {} (f.delivered.map Prod.snd)
  known : ∀ m ∈ f.delivered.map Prod.snd, m.source ∈ sources
  addrs : ∀ w ∈ f.workers, w.key.addr ∈ sources
  hand : ∀ w ∈ f.workers, ∀ m ∈ w.phase.inHand, m.source = w.key.addr

variable {sources : List String} {f g : Fleet}

/-- In a new fleet nothing is counted yet. -/
theorem counted_spawn (counting : f.hub.counting = true) (fresh : f.past = [])
    (zero : f.hub.metrics.messages = {}) (addrs : List String) :
    Counted addrs (f.spawn addrs) where
  counting := counting
  tally := by
    have none : (f.spawn addrs).delivered = [] := by simp [delivered, history, spawn, fresh]
    rw [none]
    exact zero
  known m hm := by simp [delivered, history, spawn, fresh] at hm
  addrs w hw := by
    obtain ⟨slot, hs, rfl⟩ := List.mem_mapIdx.1 hw
    exact List.getElem_mem hs
  hand w hw m hm := by
    obtain ⟨slot, hs, rfl⟩ := List.mem_mapIdx.1 hw
    cases hm

namespace Counted

theorem stepWorker? {slot : Nat} (h : Counted sources f) (hg : f.stepWorker? slot = some g) :
    Counted sources g := by
  obtain ⟨w, s, hw, hs, rfl⟩ := exists_of_stepWorker? hg
  have step := transition_of_step? hs
  have mem := List.mem_of_getElem? hw
  have tallies := tallies_of_transition step h.counting (h.hand w mem)
  have key := key_of_transition step
  have sent : (f.afterStep slot s).delivered.map Prod.snd =
      f.delivered.map Prod.snd ++ s.messages := by
    rw [delivered_afterStep]
    simp [Function.comp_def]
  refine ⟨(kept_of_transition step).counting.trans h.counting, ?_, ?_, ?_, ?_⟩
  · rw [sent, Series.tally_append, ← h.tally]
    exact tallies.counts
  · intro m hm
    rw [sent, List.mem_append] at hm
    rcases hm with hm | hm
    · exact h.known m hm
    · rw [tallies.sent m hm]
      exact h.addrs w mem
  · intro v hv
    rcases List.mem_or_eq_of_mem_set hv with hv | rfl
    · exact h.addrs v hv
    · rw [key]
      exact h.addrs w mem
  · intro v hv
    rcases List.mem_or_eq_of_mem_set hv with hv | rfl
    · exact h.hand v hv
    · rw [key]
      exact tallies.hand

/-- What leaves the workers, their history and the counters alone. -/
theorem withHub (h : Counted sources f) {hub : Hub} (counting : hub.counting = f.hub.counting)
    (metrics : hub.metrics = f.hub.metrics) : Counted sources { f with hub } :=
  ⟨counting.trans h.counting, by rw [metrics]; exact h.tally, h.known, h.addrs, h.hand⟩

/-- Whatever happens, the counters agree with the history. -/
theorem act {a : Act} (h : Counted sources f) (ha : f.act? a = some g) : Counted sources g := by
  cases change_of_act? ha with
  | step => exact h.stepWorker? ha
  | _ => exact h.withHub rfl rfl

theorem run {acts : List Act} (h : Counted sources f) (ran : f.run? acts = some g) :
    Counted sources g :=
  preserved_of_run? Counted.act h ran

end Counted

end Fleet

end FeedCapture
