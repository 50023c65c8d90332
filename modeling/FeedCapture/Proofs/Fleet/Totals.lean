import FeedCapture.Proofs.Fleet.Counting
import FeedCapture.Proofs.Fleet.Gauge
import Mathlib.Data.Nat.ModEq

/-!
# The counters against what happened

At any point of a run the counters of an address tell what the workers of this address did: the
messages counted are those handed to the consumer and those still queued, every failed dial is
counted once, and the connections counted up and not down are those that are open and those whose
read broke down.

## Main definitions

* `Worker.tally` — what events of one source add up to
* `Fleet.eventsOf` — what the workers of an address did
* `Fleet.Totalled` — the events of every address agree with its workers

The main statement is `Fleet.totals_of_run`.
-/

namespace FeedCapture

/-! ## Sums of counters -/

/-- What counters of 64 bits show. -/
def SourceCounters.wrapped (c : SourceCounters) : SourceCounters where
  messages := c.messages % UInt64.size
  bytes := c.bytes % UInt64.size
  connects := c.connects % UInt64.size
  disconnects := c.disconnects % UInt64.size
  dialFailures := c.dialFailures % UInt64.size

namespace Worker

open Transport

/-- A connection was opened. -/
def Event.opens : Event → Bool
  | .connected _ => true
  | _ => false

/-- Reading from a connection came to an end. -/
def Event.exits : Event → Bool
  | .exited _ => true
  | _ => false

/-- A failed dial was recorded. -/
def Event.failsDial : Event → Bool
  | .dialFailed _ _ _ => true
  | _ => false

/-- A dial came back with a failure. -/
def Event.refusesDial : Event → Bool
  | .dialEnded (.refused _) => true
  | _ => false

/-- What events of one source add up to. -/
def tally (es : List Event) : SourceCounters where
  messages := (es.filterMap Event.message?).length
  bytes := ((es.filterMap Event.message?).map fun m => m.data.length).sum
  connects := es.countP Event.opens
  disconnects := es.countP Event.exits
  dialFailures := es.countP Event.failsDial

/-- One more event is counted. -/
theorem ofSource_count_of_tally {addr : String} {m : Metrics} {es : List Event}
    (same : m.ofSource addr = (tally es).wrapped) (e : Event) :
    (e.count addr m).ofSource addr = (tally (es ++ [e])).wrapped := by
  simp only [Metrics.ofSource, tally, SourceCounters.wrapped, SourceCounters.mk.injEq] at same
  obtain ⟨messages, bytes, connects, disconnects, dialFailures⟩ := same
  cases e <;> simp [Event.count, Metrics.ofSource, Metrics.recordDialFailure,
    Metrics.recordConnect, Metrics.recordMessage, Metrics.recordDisconnect, tally,
    SourceCounters.wrapped, Event.message?, Event.opens, Event.exits, Event.failsDial,
    List.countP_append, List.filterMap_append, List.filterMap_cons, messages, bytes, connects,
    disconnects, dialFailures, List.countP_nil, List.countP_singleton]

/-- The connections that come and go are counted, but for the reads that break down. -/
theorem net_eq_countP (es : List Event) :
    net es =
      es.countP Event.opens - (es.countP Event.exits + es.countP Event.breaksRead : Nat) := by
  induction es with
  | nil => rfl
  | cons e es ih =>
    rw [net_cons, ih]
    have one : e.net = (if e.opens then 1 else 0) -
        ((if e.exits then 1 else 0) + (if e.breaksRead then 1 else 0) : Nat) := by
      cases e with
      | read result => cases result <;> rfl
      | _ => rfl
    simp only [List.countP_cons, one]
    split <;> split <;> split <;> omega

/-! ## Failed dials -/

variable {h : Hub} {w : Worker} {s : Step}

/-- Failed dials are recorded, once each. -/
def FailuresRecorded (es : List Event) : Prop :=
  es.countP Event.failsDial = es.countP Event.refusesDial

theorem FailuresRecorded.append {xs ys : List Event} (hx : FailuresRecorded xs)
    (hy : FailuresRecorded ys) : FailuresRecorded (xs ++ ys) := by
  rw [FailuresRecorded, List.countP_append, List.countP_append, hx, hy]

theorem FailuresRecorded.after (recorded : FailuresRecorded s.events) {e : Event}
    (fails : e.failsDial = false) (refuses : e.refusesDial = false) :
    FailuresRecorded (s.after e).events := by
  rw [FailuresRecorded, events_after, List.countP_cons, List.countP_cons, fails, refuses, recorded]

theorem FailuresRecorded.of_plain {es : List Event} (plain : Plain es) : FailuresRecorded es := by
  have none : ∀ p : Event → Bool, (∀ e : Event, e.plain = true → p e = false) →
      es.countP p = 0 := fun p other =>
    List.countP_eq_zero.2 fun e he yes => by simp [other e (plain e he)] at yes
  refine (none _ ?_).trans (none _ ?_).symm
  · intro e he
    cases e <;> first | rfl | cases he
  · intro e he
    cases e <;> first | rfl | cases he

theorem failuresRecorded_notices (notices : List Registry.Notice) :
    FailuresRecorded (notices.map .registry) := by
  simp [FailuresRecorded, List.countP_map, Function.comp_def, Event.failsDial, Event.refusesDial]

/-- A worker records each failed dial once. -/
theorem failuresRecorded_of_transition (step : Transition h w s) : FailuresRecorded s.events := by
  have left : ∀ (h : Hub) (reason : ReadExit), FailuresRecorded (leave h w reason).events :=
    fun h reason => .of_plain (plain_leave h w reason)
  have crashed : ∀ reason : String, FailuresRecorded (crash h w reason).events :=
    fun reason => .of_plain (plain_crash h w reason)
  cases step with
  | halt idle stopping => exact .of_plain (plain_stop h w)
  | dial phase going =>
    rw [events_begin h w going]
    exact (FailuresRecorded.of_plain (plain_linkEvents _ _)).append rfl
  | @refused due e phase going passed =>
    have change := FailuresRecorded.of_plain (plain_linkEvents w.phase.link .disconnected)
    show FailuresRecorded ([Event.dialEnded (.refused e)] ++ (linkEvents _ _ ++ [_]))
    simp only [FailuresRecorded, List.countP_append, List.countP_singleton] at change ⊢
    rw [change]
    simp [Event.failsDial, Event.refusesDial, Nat.add_comm]
  | dialBroke phase going passed => exact (crashed _).after rfl rfl
  | connected phase going passed =>
    refine FailuresRecorded.after ?_ rfl rfl
    have one : FailuresRecorded [.connected (w.outage.markUp h.now h.policy.outage).2] := rfl
    exact (((FailuresRecorded.of_plain (plain_tune _ _)).append one).append
      (failuresRecorded_notices _)).append (.of_plain (plain_linkEvents _ _))
  | retry phase going passed => rfl
  | closed phase close => exact left _ _
  | eof phase going read => exact (left _ _).after rfl rfl
  | failed phase going read => exact (left _ _).after rfl rfl
  | readBroke phase going read => exact (crashed _).after rfl rfl
  | queued phase going read offer => rfl
  | parked phase going read offer => rfl
  | unwanted phase going read offer => exact ((left _ _).after rfl rfl).after rfl rfl
  | idle phase going read passed stale => exact left _ _
  | silent phase going read passed fresh => rfl
  | givenUp phase close => exact (left _ _).after rfl rfl
  | abandoned phase going claim => exact (left _ _).after rfl rfl
  | handedOver phase going claim => rfl

end Worker

namespace Fleet

open Worker

/-- What the workers of an address did, where the address of each slot is given; the earliest
first. -/
def eventsOf (f : Fleet) (sources : List String) (addr : String) : List Event :=
  f.history.filterMap fun (_, slot, e) => if sources[slot]? = some addr then some e else none

variable {sources : List String} {f g : Fleet}

theorem eventsOf_afterStep (slot : Nat) (s : Step) (addr : String) :
    (f.afterStep slot s).eventsOf sources addr =
      f.eventsOf sources addr ++ if sources[slot]? = some addr then s.events else [] := by
  simp only [eventsOf, history, afterStep, List.reverse_append, List.reverse_reverse,
    List.filterMap_append, List.filterMap_map, Function.comp_def]
  split
  · simp
  · simp

/-! ## The counters of an address -/

/-- The counters of an address are those of the events of its workers. -/
theorem ofSource_meter_eq_tally (addr : String) {history : List (Instant × Nat × Event)}
    (slots : ∀ e ∈ history, e.2.1 < sources.length) :
    (meter sources history).ofSource addr =
      (tally (history.filterMap fun e =>
        if sources[e.2.1]? = some addr then some e.2.2 else none)).wrapped := by
  induction history using List.reverseRecOn with
  | nil => rfl
  | append_singleton history e ih =>
    have earlier := ih fun e he => slots e (by simp [he])
    have inside : e.2.1 < sources.length := slots e (by simp)
    have last : meter sources (history ++ [e]) =
        e.2.2.count sources[e.2.1] (meter sources history) := by
      simp [meter, inside]
    rw [last, List.filterMap_append]
    by_cases own : sources[e.2.1] = addr
    · subst own
      simpa [List.filterMap_cons, inside] using ofSource_count_of_tally earlier e.2.2
    · rw [ofSource_count_of_ne _ _ e.2.2 (Ne.symm own), earlier]
      simp [inside, own]

theorem Gauged.ofSource_eq_tally (h : Gauged sources f) (counting : f.hub.counting = true)
    (addr : String) :
    f.hub.metrics.ofSource addr = (tally (f.eventsOf sources addr)).wrapped := by
  rw [h.metrics, if_pos counting]
  exact ofSource_meter_eq_tally addr fun e he => h.slots e (List.mem_reverse.1 he)

/-! ## The events of an address -/

/-- The events of every address agree with its workers: they carry its messages, the connections
that came and did not go are open, and every failed dial was recorded. -/
structure Totalled (sources : List String) (f : Fleet) : Prop where
  sent : ∀ t slot m, (t, slot, Event.delivered m) ∈ f.past → sources[slot]? = some m.source
  live : ∀ addr, (f.workers.map fun w => if w.key.addr = addr then w.phase.openCount else 0).sum =
    net (f.eventsOf sources addr)
  recorded : ∀ addr, FailuresRecorded (f.eventsOf sources addr)

namespace Totalled

/-- New workers have done nothing. -/
theorem new (fresh : f.past = []) : Totalled sources (f.spawn sources) where
  sent t slot m hm := by simp [Fleet.spawn, fresh] at hm
  live addr := by
    simp [Fleet.spawn, eventsOf, history, fresh, List.mapIdx_eq_zipIdx_map, Function.comp_def,
      Phase.openCount]
  recorded addr := by
    simp [Fleet.spawn, eventsOf, history, fresh, FailuresRecorded]

theorem stepWorker? {slot : Nat} (h : Totalled sources f) (gauged : Gauged sources f)
    (counted : Counted sources f) (hg : f.stepWorker? slot = some g) : Totalled sources g := by
  obtain ⟨w, s, hw, hs, rfl⟩ := exists_of_stepWorker? hg
  have step := transition_of_step? hs
  have tallies := tallies_of_transition step counted.counting
    (counted.hand w (List.mem_of_getElem? hw))
  have known : sources[slot]? = some w.key.addr := gauged.addrs slot w hw
  refine ⟨?_, ?_, ?_⟩
  · intro t other m hm
    rcases List.mem_append.1 hm with hm | hm
    · obtain ⟨e, he, same⟩ := List.mem_map.1 (List.mem_reverse.1 hm)
      simp only [Prod.mk.injEq] at same
      obtain ⟨-, rfl, rfl⟩ := same
      have sent : m ∈ s.messages := List.mem_filterMap.2 ⟨_, he, rfl⟩
      rw [known, tallies.sent m sent]
    · exact h.sent t other m hm
  · intro addr
    have changed := sum_map_set (fun w => if w.key.addr = addr then w.phase.openCount else 0) hw
      s.worker
    rw [key_of_transition step, h.live addr] at changed
    rw [eventsOf_afterStep, known, net_append]
    show ((f.workers.set slot s.worker).map _).sum = _
    by_cases own : w.key.addr = addr
    · simp only [own, if_true, open_of_transition step] at changed ⊢
      omega
    · simp only [own, if_false, Option.some.injEq, net_nil] at changed ⊢
      omega
  · intro addr
    have own := failuresRecorded_of_transition step
    have earlier := h.recorded addr
    rw [eventsOf_afterStep]
    split
    · simp only [FailuresRecorded, List.countP_append] at own earlier ⊢
      omega
    · simpa using earlier

/-- Whatever happens, the events of every address agree with its workers. -/
theorem act {a : Act} (h : Totalled sources f) (gauged : Gauged sources f)
    (counted : Counted sources f) (ha : f.act? a = some g) : Totalled sources g := by
  cases change_of_act? ha with
  | step => exact h.stepWorker? gauged counted ha
  | _ => exact ⟨h.sent, h.live, h.recorded⟩

/-- The messages among the events of an address are those on the bus that come from it. -/
theorem messages_eventsOf (h : Totalled sources f) (addr : String) :
    (f.eventsOf sources addr).filterMap Event.message? =
      (f.delivered.map Prod.snd).filter fun m => m.source = addr := by
  have sent : ∀ t slot m, (t, slot, Event.delivered m) ∈ f.history →
      sources[slot]? = some m.source := fun t slot m hm => h.sent t slot m (List.mem_reverse.1 hm)
  unfold eventsOf delivered
  generalize f.history = history at sent
  induction history with
  | nil => rfl
  | cons e history ih =>
    obtain ⟨t, slot, e⟩ := e
    have later := ih fun t slot m hm => sent t slot m (by simp [hm])
    cases e with
    | delivered m =>
      have source := sent t slot m (by simp)
      by_cases own : m.source = addr
      · simpa [List.filterMap_cons, source, own] using later
      · simpa [List.filterMap_cons, source, own] using later
    | _ => by_cases own : sources[slot]? = some addr <;>
        simpa [List.filterMap_cons, Event.message?, own] using later

end Totalled

/-! ## What is received and what is queued -/

/-- As long as somebody receives, what was received and what is queued is what was put on the
bus. -/
def Passed (f : Fleet) (got : List Message) : Prop :=
  f.hub.bus.receiving = true → got ++ f.hub.bus.queue = f.delivered.map Prod.snd

theorem Passed.act {got : List Message} {a : Act} (h : f.Passed got) (ha : f.act? a = some g) :
    g.Passed (got ++ f.takes a) := by
  intro receiving
  have quiet : ∀ hub : Hub, hub.bus.queue = f.hub.bus.queue →
      hub.bus.receiving = f.hub.bus.receiving → Passed { f with hub } (got ++ []) := by
    intro hub queue same receiving
    rw [List.append_nil]
    exact queue.symm ▸ h (same ▸ receiving)
  cases change_of_act? ha with
  | @step slot w s worker step =>
    have step := transition_of_step? step
    have before := h ((kept_of_transition step).receiving ▸ receiving)
    have sent : (f.afterStep slot s).delivered.map Prod.snd =
        f.delivered.map Prod.snd ++ s.messages := by
      rw [delivered_afterStep]
      simp [Function.comp_def]
    have grown : (f.afterStep slot s).hub.bus.queue = f.hub.bus.queue ++ s.messages :=
      queue_of_transition step
    have takes : f.takes (.step slot) = [] := rfl
    rw [grown, sent, ← before, takes, List.append_nil, List.append_assoc]
  | @receive m bus taken =>
    have head := Bus.queue_of_take? taken
    have before := h ((Bus.frame_of_take? taken).2.1 ▸ receiving)
    have takes : f.takes .receive = [m] := by simp [takes, receive?, taken]
    show got ++ f.takes .receive ++ bus.queue = f.delivered.map Prod.snd
    rw [takes, List.append_assoc, List.singleton_append, ← head, before]
  | stop => exact quiet _ rfl rfl receiving
  | closeAll => exact quiet _ rfl rfl receiving
  | closeBus => exact quiet _ rfl rfl receiving
  | dropReceivers => cases receiving
  | @clock _ t moves later =>
    have takes : f.takes a = [] := by rcases moves with rfl | rfl <;> rfl
    rw [takes]
    exact quiet _ rfl rfl receiving

theorem Passed.run {got : List Message} {acts : List Act} (h : f.Passed got)
    (ran : f.run? acts = some g) : g.Passed (got ++ f.received acts) := by
  induction acts generalizing f got with
  | nil =>
    cases ran
    simpa [received] using h
  | cons a acts ih =>
    obtain ⟨f', ha, ran⟩ := Option.bind_eq_some_iff.1 ran
    simp only [received, ha]
    rw [← List.append_assoc]
    exact ih (h.act ha) ran

/-! ## Runs -/

/-- The number of connections that the workers of an address have. -/
def connectionsOf (f : Fleet) (addr : String) : Nat :=
  f.workers.countP fun w => w.isConnected && w.key.addr = addr

theorem sum_openCount_of_addr (ws : List Worker) (addr : String) :
    (ws.map fun w => if w.key.addr = addr then w.phase.openCount else 0).sum =
      (ws.countP fun w => w.isConnected && w.key.addr = addr : Nat) := by
  induction ws with
  | nil => rfl
  | cons w ws ih =>
    rw [List.map_cons, List.sum_cons, ih, List.countP_cons]
    by_cases own : w.key.addr = addr
    · cases phase : w.phase <;> simp [own, Phase.openCount, isConnected, Phase.link, phase] <;>
        omega
    · simp [own]

/-- The connections of an address that came are those that went, those that are open, and those
whose read broke down. -/
theorem Totalled.opens_eq (h : Totalled sources f) (addr : String) :
    (f.eventsOf sources addr).countP Event.opens =
      (f.eventsOf sources addr).countP Event.exits +
        (f.connectionsOf addr + (f.eventsOf sources addr).countP Event.breaksRead) := by
  have open_ := h.live addr
  rw [sum_openCount_of_addr, net_eq_countP] at open_
  unfold connectionsOf
  omega

/-- In every run of counting workers the events of each address agree with its workers, and the
counters with the events. -/
theorem totalled_of_run {policy : Policy} {network : Network} {bus : Bus Nat} {spare : Bool}
    {acts : List Act}
    (ran : ((create policy network bus true spare).spawn sources).run? acts = some f) :
    Totalled sources f ∧ Gauged sources f ∧ Counted sources f := by
  refine preserved_of_run?
    (P := fun f => Totalled sources f ∧ Gauged sources f ∧ Counted sources f) ?_ ?_ ran
  · rintro f g a ⟨totalled, gauged, counted⟩ ha
    exact ⟨totalled.act gauged counted ha, gauged.act ha, counted.act ha⟩
  · exact ⟨.new rfl, .spawn (.new rfl rfl rfl) rfl, counted_spawn rfl rfl rfl sources⟩

/-- **The counters tell what happened.**  At any point of a run of counting workers at which
somebody receives, and for every address: the messages counted are those of this address that were
received or are queued, the bytes are theirs, the failed dials are those of all workers of the
address, and the connections counted are those that were counted as left, those that are open and
those whose read broke down.  Counters have 64 bits; if less than that has happened at the address,
only the bytes can wrap around. -/
theorem totals_of_run {policy : Policy} {network : Network} {capacity : Nat} {bus : Bus Nat}
    {spare : Bool} {start : Fleet} {acts : List Act}
    (built : Bus.withCapacity Nat capacity = .ok bus)
    (new : start = (create policy network bus true spare).spawn sources)
    (ran : start.run? acts = some f) (receiving : f.hub.bus.receiving = true) (addr : String) :
    let messages := (start.received acts ++ f.hub.bus.queue).filter fun m => m.source = addr
    let events := f.eventsOf sources addr
    let failed := events.countP Event.refusesDial
    let broken := events.countP Event.breaksRead
    let shown := f.hub.metrics.ofSource addr
    shown.messages = messages.length % UInt64.size ∧
      shown.bytes = (messages.map fun m => m.data.length).sum % UInt64.size ∧
      shown.dialFailures = failed % UInt64.size ∧
      shown.connects ≡ shown.disconnects + (f.connectionsOf addr + broken) [MOD UInt64.size] ∧
      (events.length < UInt64.size →
        shown.messages = messages.length ∧ shown.dialFailures = failed ∧
          shown.connects = shown.disconnects + (f.connectionsOf addr + broken)) := by
  subst new
  intro messages events failed broken shown
  obtain ⟨totalled, gauged, counted⟩ := totalled_of_run ran
  have empty : ((create policy network bus true spare).spawn sources).Passed [] := by
    obtain rfl := Bus.eq_of_withCapacity built
    exact fun _ => rfl
  have passed := empty.run ran receiving
  have carried : events.filterMap Event.message? = messages := by
    rw [List.nil_append] at passed
    rw [totalled.messages_eventsOf addr, ← passed]
  have refused : events.countP Event.failsDial = failed := totalled.recorded addr
  have opens := totalled.opens_eq addr
  have counters : shown = (tally events).wrapped := gauged.ofSource_eq_tally counted.counting addr
  rw [counters]
  simp only [SourceCounters.wrapped, tally, carried, refused]
  refine ⟨trivial, trivial, trivial, ?_, fun few => ?_⟩
  · rw [opens]
    exact (Nat.mod_modEq _ _).trans (Nat.ModEq.add_right _ (Nat.mod_modEq _ _).symm)
  · have fits : ∀ p : Event → Bool, events.countP p % UInt64.size = events.countP p := fun p =>
      Nat.mod_eq_of_lt (Nat.lt_of_le_of_lt List.countP_le_length few)
    have short : messages.length < UInt64.size := by
      rw [← carried]
      exact Nat.lt_of_le_of_lt (List.length_filterMap_le _ _) few
    rw [fits Event.opens, fits Event.exits, opens]
    refine ⟨Nat.mod_eq_of_lt short, ?_, rfl⟩
    rw [← refused]
    exact fits _

/-- Two workers for one address: its first dial fails, and on the connection of the second one two
bytes come before the read breaks down. -/
def shared : Fleet :=
  (create {}
    ⟨[("feed:1", [.settles 0 (.refused { kind := .timedOut }),
      .settles 0 (.connected [(0, .sends [1, 2]), (0, .breaksDown "read broke")] none)])]⟩
    { capacity := 1 } true false).spawn ["feed:1", "feed:1"]

/-- The first worker fails to dial; the second one connects and reads until the read breaks down,
and its message is received. -/
def sharedActs : List Act :=
  [.step 0, .step 0, .step 1, .step 1, .step 1, .receive, .step 1]

theorem totals_of_run_shared :
    ∃ f, shared.run? sharedActs = some f ∧ Bus.withCapacity Nat 1 = .ok { capacity := 1 } ∧
      f.hub.bus.receiving = true ∧ (f.eventsOf ["feed:1", "feed:1"] "feed:1").length = 16 ∧
      let shown := f.hub.metrics.ofSource "feed:1"
      shown.messages = 1 ∧ shown.bytes = 2 ∧ shown.dialFailures = 1 ∧
        shown.connects = shown.disconnects + (0 + 1) := by
  have outcome : (shared.run? sharedActs).map (fun f =>
      ((f.hub.bus.receiving, (f.eventsOf ["feed:1", "feed:1"] "feed:1").length,
        f.connectionsOf "feed:1"),
        (f.eventsOf ["feed:1", "feed:1"] "feed:1").countP Event.refusesDial,
        (f.eventsOf ["feed:1", "feed:1"] "feed:1").countP Event.breaksRead,
        ((shared.received sharedActs ++ f.hub.bus.queue).filter fun m =>
          m.source = "feed:1").map fun m => m.data.length)) =
      some ((true, 16, 0), 1, 1, [2]) := by
    decide +kernel
  obtain ⟨f, ran, facts⟩ := Option.map_eq_some_iff.1 outcome
  simp only [Prod.mk.injEq] at facts
  obtain ⟨⟨receiving, length, open_⟩, refused, broken, sizes⟩ := facts
  have built : Bus.withCapacity Nat 1 = .ok { capacity := 1 } := rfl
  have new : shared = (create {} shared.hub.network { capacity := 1 } true false).spawn
      ["feed:1", "feed:1"] := rfl
  obtain ⟨-, bytes, -, -, exact_⟩ := totals_of_run built new ran receiving "feed:1"
  obtain ⟨messages, failed, connects⟩ := exact_ (by rw [length]; decide)
  have one := congrArg List.length sizes
  rw [List.length_map] at one
  rw [refused] at failed
  rw [open_, broken] at connects
  rw [sizes] at bytes
  exact ⟨f, ran, built, receiving, length, messages.trans one, bytes, failed, connects⟩

end Fleet

end FeedCapture
