import FeedCapture.Proofs.Fleet.Wiring
import FeedCapture.Proofs.Supervisor.Fleets
import FeedCapture.Proofs.Worker.Metering
import Mathlib.Data.List.Induction
import Mathlib.Data.List.Nodup

/-!
# Connections and how they are counted

The counters of a fleet are those of its history.  The registry has as many entries as there are
workers with a connection, and the counter of open connections agrees with them, but for the
connections whose read broke down: nobody counts these down.

## Main definitions

* `Fleet.meter` — the counters after a history
* `Fleet.Gauged` — a fleet has the counters and the connections of its history

The main statement is `Supervision.activeConnections_of_run`.
-/

namespace FeedCapture

namespace Fleet

open Worker

/-- The counters after a history, where the address of each slot is given. -/
def meter (sources : List String) (history : List (Instant × Nat × Event)) : Metrics :=
  history.foldl (fun m e => e.2.2.count (sources[e.2.1]?.getD "") m) {}

variable {sources : List String} {f g : Fleet}

theorem meter_append_step (history : List (Instant × Nat × Event)) (t : Instant) {slot : Nat}
    {addr : String} (known : sources[slot]? = some addr) (es : List Event) :
    meter sources (history ++ es.map fun e => (t, slot, e)) =
      Worker.meter addr (meter sources history) es := by
  simp only [meter, List.foldl_append, List.foldl_map, known, Option.getD_some, Worker.meter]

/-- The counter of open connections is what the connections that came and went leave, and those
whose read broke down. -/
theorem activeConnections_meter (history : List (Instant × Nat × Event)) :
    (meter sources history).activeConnections =
      net (history.map fun e => e.2.2) + (history.countP fun e => e.2.2.breaksRead : Nat) := by
  induction history using List.reverseRecOn with
  | nil => rfl
  | append_singleton history e ih =>
    have last : meter sources (history ++ [e]) =
        e.2.2.count (sources[e.2.1]?.getD "") (meter sources history) := by
      simp [meter]
    rw [last, activeConnections_count, ih, List.map_append, net_append, List.countP_append]
    simp only [List.map_cons, List.map_nil, net_cons, net_nil, List.countP_cons, List.countP_nil]
    split <;> simp <;> omega

/-- A fleet has the counters and the connections of its history. -/
structure Gauged (sources : List String) (f : Fleet) : Prop where
  addrs : ∀ (slot : Nat) (w : Worker), f.workers[slot]? = some w →
    sources[slot]? = some w.key.addr
  slots : ∀ e ∈ f.past, e.2.1 < sources.length
  metrics : f.hub.metrics = if f.hub.counting then meter sources f.history else {}
  open_ : (f.workers.map fun w => w.phase.openCount).sum = net (f.history.map fun e => e.2.2)

namespace Gauged

/-- A new fleet has no history. -/
theorem new (fresh : f.past = []) (none : f.workers = []) (zero : f.hub.metrics = {}) :
    Gauged sources f where
  addrs slot w hw := by simp [none] at hw
  slots e he := by simp [fresh] at he
  metrics := by simp [zero, history, fresh, meter]
  open_ := by simp [none, history, fresh]

/-- New workers have no connections. -/
theorem spawn (h : Gauged sources f) (none : f.workers = []) :
    Gauged sources (f.spawn sources) where
  addrs slot w hw := by
    simp only [Fleet.spawn, List.getElem?_mapIdx, Option.map_eq_some_iff] at hw
    obtain ⟨addr, known, rfl⟩ := hw
    exact known
  slots := h.slots
  metrics := h.metrics
  open_ := by
    have before := h.open_
    rw [none] at before
    show _ = net (f.history.map fun e => e.2.2)
    rw [← before, Fleet.spawn]
    simp [List.mapIdx_eq_zipIdx_map, Function.comp_def, Phase.openCount]

theorem stepWorker? {slot : Nat} (h : Gauged sources f) (hg : f.stepWorker? slot = some g) :
    Gauged sources g := by
  obtain ⟨w, s, hw, hs, rfl⟩ := exists_of_stepWorker? hg
  have step := transition_of_step? hs
  have more : (f.afterStep slot s).history =
      f.history ++ s.events.map fun e => (f.hub.now, slot, e) := by
    simp [history, afterStep]
  have kept := kept_of_transition step
  refine ⟨fun other v hv => ?_, fun e he => ?_, ?_, ?_⟩
  · obtain ⟨u, hu, key⟩ := exists_key_eq_of_afterStep hw step hv
    rw [← key]
    exact h.addrs other u hu
  · rcases List.mem_append.1 he with he | he
    · obtain ⟨e, -, rfl⟩ := List.mem_map.1 (List.mem_reverse.1 he)
      exact (List.getElem?_eq_some_iff.1 (h.addrs slot w hw)).1
    · exact h.slots e he
  · have metered : s.hub.metrics = _ := metrics_of_transition step
    rw [more, meter_append_step _ _ (h.addrs slot w hw)]
    show s.hub.metrics = if s.hub.counting then _ else _
    rw [metered, kept.counting, h.metrics]
    split <;> rfl
  · have changed := sum_map_set (fun w => w.phase.openCount) hw s.worker
    rw [open_of_transition step] at changed
    rw [more, List.map_append, net_append, ← h.open_, List.map_map]
    show ((f.workers.set slot s.worker).map fun w => w.phase.openCount).sum =
      _ + net (s.events.map id)
    rw [List.map_id]
    omega

/-- What leaves the workers, their history and the counters alone. -/
theorem withHub (h : Gauged sources f) {hub : Hub} (counting : hub.counting = f.hub.counting)
    (metrics : hub.metrics = f.hub.metrics) : Gauged sources { f with hub } :=
  ⟨h.addrs, h.slots, by
    show hub.metrics = if hub.counting then _ else _
    rw [metrics, counting]
    exact h.metrics, h.open_⟩

/-- Whatever happens, a fleet has the counters and the connections of its history. -/
theorem act {a : Act} (h : Gauged sources f) (ha : f.act? a = some g) : Gauged sources g := by
  cases change_of_act? ha with
  | step => exact h.stepWorker? ha
  | _ => exact h.withHub rfl rfl

end Gauged

/-- The counters of a source are those of what its worker did, where each source has one worker. -/
theorem ofSource_meter (distinct : sources.Nodup) {slot : Nat} {addr : String}
    (known : sources[slot]? = some addr) {past : List (Instant × Nat × Event)}
    (slots : ∀ e ∈ past, e.2.1 < sources.length) :
    (meter sources past.reverse).ofSource addr =
      (Worker.meter addr {} ((past.filterMap fun e =>
        if e.2.1 = slot then some e.2.2 else none).reverse)).ofSource addr := by
  induction past with
  | nil => rfl
  | cons e past ih =>
    obtain ⟨t, other, e⟩ := e
    obtain ⟨earlier, slots⟩ := List.forall_mem_cons.1 slots
    have last : meter sources ((t, other, e) :: past).reverse =
        e.count (sources[other]?.getD "") (meter sources past.reverse) := by
      simp [meter]
    have found : sources[other]? = some sources[other] := List.getElem?_eq_getElem earlier
    rw [last, found, Option.getD_some]
    by_cases own : other = slot
    · subst own
      obtain rfl : sources[other] = addr := by simpa [found] using known
      rw [ofSource_count_congr _ e (ih slots)]
      simp [Worker.meter]
    · obtain ⟨inside, rfl⟩ := List.getElem?_eq_some_iff.1 known
      have others : sources[slot] ≠ sources[other] := fun same =>
        own ((List.Nodup.getElem_inj_iff distinct).1 same).symm
      rw [ofSource_count_of_ne _ _ e others, ih slots]
      simp [own]

/-- The counters of a source are those of what its worker did. -/
theorem Gauged.ofSource (h : Gauged sources f) (distinct : sources.Nodup) {slot : Nat}
    {addr : String} (known : sources[slot]? = some addr) :
    f.hub.metrics.ofSource addr =
      if f.hub.counting then
        (Worker.meter addr {} ((f.log slot).map Prod.snd).reverse).ofSource addr
      else Metrics.ofSource {} addr := by
  have events : (f.log slot).map Prod.snd = f.past.filterMap fun e =>
      if e.2.1 = slot then some e.2.2 else none := by
    rw [log, List.map_filterMap]
    congr 1
    funext e
    by_cases own : e.2.1 = slot <;> simp [own]
  rw [h.metrics, history, apply_ite (Metrics.ofSource · addr),
    ofSource_meter distinct known h.slots, events]

/-! ## The registry -/

/-- No two workers have the same key. -/
theorem Wired.nodup_keys (h : f.Wired) : (f.workers.map fun w => w.key).Nodup := by
  have slots : (f.workers.map fun w => w.key).map (fun key => key.slot) =
      List.range f.workers.length := by
    refine List.ext_getElem (by simp) fun i hi _ => ?_
    simp only [List.getElem_map, List.getElem_range]
    exact h.slots i _ (List.getElem?_eq_getElem (by simpa using hi))
  refine .of_map (fun key => key.slot) ?_
  rw [slots]
  exact List.nodup_range

/-- A key has an entry in the registry when its worker has a connection. -/
theorem Wired.mem_keys_iff (h : f.Wired) (key : SourceKey) : key ∈ f.hub.registry.keys ↔
    ∃ w ∈ f.workers, w.isConnected = true ∧ w.key = key := by
  constructor
  · intro hk
    obtain ⟨w, hw, rfl⟩ := h.owned key hk
    obtain ⟨e, he, key⟩ := List.mem_map.1 hk
    have found : f.hub.registry.get? w.key = some e.2 :=
      Registry.get?_of_mem h.nodup (by rw [← key]; exact he)
    refine ⟨w, List.mem_of_getElem? hw, (isConnected_iff w).2 fun shut => ?_, rfl⟩
    rw [(h.each _ w hw).entry, shut] at found
    cases found
  · rintro ⟨w, hw, connected, rfl⟩
    obtain ⟨slot, hslot⟩ := List.getElem?_of_mem hw
    obtain ⟨link, hl⟩ := Option.ne_none_iff_exists'.1 ((isConnected_iff w).1 connected)
    have found := (h.each slot w hslot).entry
    rw [hl] at found
    exact Registry.mem_keys_of_get? found

/-- The registry has as many entries as there are workers with a connection. -/
theorem Wired.size_eq (h : f.Wired) :
    f.hub.registry.size = f.workers.countP Worker.isConnected := by
  have same : f.hub.registry.keys.Perm
      ((f.workers.filter Worker.isConnected).map fun w => w.key) := by
    refine (List.perm_ext_iff_of_nodup h.nodup
      (h.nodup_keys.sublist (List.filter_sublist.map _))).2 fun key => ?_
    rw [h.mem_keys_iff]
    simp [and_assoc]
  have length := same.length_eq
  simpa [Registry.keys, Registry.size, List.countP_eq_length_filter] using length

theorem sum_openCount (ws : List Worker) :
    (ws.map fun w => w.phase.openCount).sum = (ws.countP Worker.isConnected : Nat) := by
  induction ws with
  | nil => rfl
  | cons w ws ih =>
    rw [List.map_cons, List.sum_cons, ih, List.countP_cons]
    cases phase : w.phase <;> simp [Phase.openCount, isConnected, Phase.link, phase] <;> omega

end Fleet

namespace Supervision

/-- In every state that a supervisor can reach, the fleet has the counters and the connections of
its history. -/
theorem gauged_of_run? {sources : List String} {policy : Policy} {network : Network}
    {counting : Bool} {supervisor : Supervisor} {acts : List Act} {s : Supervision}
    (created : Supervisor.create sources policy network counting = .ok supervisor)
    (ran : run? { supervisor } acts = some s) :
    s.supervisor.fleet.Gauged sources ∧ s.supervisor.fleet.hub.counting = counting := by
  have tended := tended_create created
  obtain ⟨-, -, rfl⟩ := Supervisor.create_eq_ok created
  refine preserved_of_run? (P := fun f => f.Gauged sources ∧ f.hub.counting = counting) ?_ ?_ tended
    ⟨.new rfl rfl rfl, rfl⟩ ran
  · intro f g a _ h ha
    refine ⟨h.1.act ha, ?_⟩
    cases Fleet.change_of_act? ha with
    | step worker step =>
      exact (Worker.kept_of_transition (Worker.transition_of_step? step)).counting.trans h.2
    | _ => exact h.2
  · exact fun h none => ⟨h.1.spawn none, h.2⟩

/-- **How open connections are counted.**  In every state that a supervisor can reach, the registry
has as many entries as there are workers with a connection, and the counter of open connections is
their number and that of the reads that broke down so far.  So it is that number when no read has
broken down; and when all workers have ended, no entry is left, and what is still counted are the
connections whose read broke down. -/
theorem activeConnections_of_run {sources : List String} {policy : Policy} {network : Network}
    {supervisor : Supervisor} {acts : List Act} {s : Supervision}
    (created : Supervisor.create sources policy network true = .ok supervisor)
    (ran : run? { supervisor } acts = some s) :
    let fleet := s.supervisor.fleet
    let broken := fleet.past.countP fun e => e.2.2.breaksRead
    fleet.hub.registry.size = fleet.workers.countP Worker.isConnected ∧
      fleet.hub.metrics.activeConnections = (fleet.hub.registry.size + broken : Nat) ∧
      ((∀ w ∈ fleet.workers, w.ended = true) →
        fleet.hub.registry.size = 0 ∧ fleet.hub.metrics.activeConnections = (broken : Nat)) := by
  obtain ⟨gauged, counting⟩ := gauged_of_run? created ran
  have size := (tended_of_run? created ran).wired.size_eq
  intro fleet broken
  have count : fleet.hub.metrics.activeConnections = (fleet.hub.registry.size + broken : Nat) := by
    rw [gauged.metrics, if_pos counting, Fleet.activeConnections_meter, ← gauged.open_,
      Fleet.sum_openCount, size, Fleet.history, List.countP_reverse]
    simp [broken, fleet]
  refine ⟨size, count, fun ended => ?_⟩
  have none : fleet.hub.registry.size = 0 := by
    rw [size, List.countP_eq_zero]
    intro w hw connected
    have ended := ended w hw
    cases phase : w.phase <;> simp_all [Worker.ended, Worker.isConnected, Worker.Phase.link]
  exact ⟨none, by rw [count, none, Nat.zero_add]⟩

/-- One source, which is reached at once. -/
def brittle : Supervisor where
  sources := ["feed:1"]
  fleet := Fleet.create {}
    ⟨[("feed:1",
      [.settles 0 (.connected [(Duration.millis 1, .breaksDown "read broke")] none)])]⟩
    { capacity := 1000 } true false

/-- The worker gets a connection. -/
def brittleActs : List Act := [.start, .step 0, .step 0]

/-- The read breaks down, and the capture is stopped. -/
def brokenActs : List Act := [.pass (Duration.millis 1), .step 0, .call, .poll 0]

theorem activeConnections_of_run_brittle :
    ∃ s, Supervisor.create brittle.sources {} brittle.fleet.hub.network true = .ok brittle ∧
      run? { supervisor := brittle } brittleActs = some s ∧
      s.supervisor.fleet.workers.countP Worker.isConnected = 1 ∧
      s.supervisor.fleet.hub.registry.size = 1 ∧
      s.supervisor.fleet.hub.metrics.activeConnections = 1 := by
  have outcome : (run? { supervisor := brittle } brittleActs).map (fun s =>
      (s.supervisor.fleet.workers.countP Worker.isConnected,
        s.supervisor.fleet.past.countP fun e => e.2.2.breaksRead)) = some (1, 0) := by
    decide +kernel
  obtain ⟨s, ran, facts⟩ := Option.map_eq_some_iff.1 outcome
  simp only [Prod.mk.injEq] at facts
  obtain ⟨connected, sound⟩ := facts
  have created : Supervisor.create brittle.sources {} brittle.fleet.hub.network true =
      .ok brittle := rfl
  obtain ⟨size, count, -⟩ := activeConnections_of_run created ran
  rw [connected] at size
  rw [size, sound] at count
  exact ⟨s, created, ran, connected, size, count⟩

/-- A connection whose read broke down is still counted when the capture has been stopped. -/
theorem activeConnections_broken :
    ∃ s, run? { supervisor := brittle } (brittleActs ++ brokenActs) = some s ∧
      s.calls = [.finished] ∧ s.supervisor.fleet.canStep = false ∧
      s.supervisor.fleet.workers.countP Worker.isConnected = 0 ∧
      s.supervisor.fleet.hub.registry.size = 0 ∧
      s.supervisor.fleet.hub.metrics.activeConnections = 1 := by
  have outcome : (run? { supervisor := brittle } (brittleActs ++ brokenActs)).map (fun s =>
      (s.calls, s.supervisor.fleet.canStep,
        s.supervisor.fleet.workers.countP Worker.isConnected,
        s.supervisor.fleet.hub.registry.size,
        s.supervisor.fleet.hub.metrics.activeConnections)) =
      some ([.finished], false, 0, 0, 1) := by
    decide +kernel
  obtain ⟨s, ran, facts⟩ := Option.map_eq_some_iff.1 outcome
  simp only [Prod.mk.injEq] at facts
  exact ⟨s, ran, facts⟩

end Supervision

end FeedCapture
