import FeedCapture.Proofs.Worker.Carrying

/-!
# The bus carries what the peers sent

In every run of a fleet, what is received and what is queued are the messages that the workers put
on the bus, in that order, and the messages of each worker are what its peers sent, connection by
connection (`faithful_of_run`).

## Main definitions

* `Fleet.Accounted` — the history of a fleet accounts for what was received and what is queued
-/

namespace FeedCapture.Fleet

open Worker

/-! ## The history after a step -/

variable {f : Fleet} {slot : Nat} {s : Worker.Step}

theorem log_afterStep_self :
    (f.afterStep slot s).log slot =
      (s.events.map fun e => (f.hub.now, e)).reverse ++ f.log slot := by
  simp only [log, afterStep, List.filterMap_append, ← List.map_reverse]
  congr 1
  induction s.events.reverse with
  | nil => rfl
  | cons e es ih => simp [ih]

theorem log_afterStep_of_ne {other : Nat} (hne : slot ≠ other) :
    (f.afterStep slot s).log other = f.log other := by
  simp only [log, afterStep, List.filterMap_append]
  rw [List.filterMap_eq_nil_iff.2, List.nil_append]
  intro p hp
  obtain ⟨e, -, rfl⟩ := List.mem_map.1 (List.mem_reverse.1 hp)
  exact if_neg hne

theorem passages_afterStep_self :
    (f.afterStep slot s).passages slot =
      Passage.recordAll f.hub.now s.events (f.passages slot) := by
  rw [passages, log_afterStep_self, Passage.ofLog_append]
  rfl

theorem delivered_afterStep :
    (f.afterStep slot s).delivered = f.delivered ++ s.messages.map fun m => (slot, m) := by
  simp only [delivered, history, afterStep, List.reverse_append, List.reverse_reverse,
    List.filterMap_append, Step.messages, List.filterMap_map, List.map_filterMap,
    Function.comp_def]

theorem deliveredBy_afterStep_self :
    (f.afterStep slot s).deliveredBy slot = f.deliveredBy slot ++ s.messages := by
  simp [deliveredBy, delivered_afterStep, List.filter_map, Function.comp_def]

theorem deliveredBy_afterStep_of_ne {other : Nat} (hne : slot ≠ other) :
    (f.afterStep slot s).deliveredBy other = f.deliveredBy other := by
  simp [deliveredBy, delivered_afterStep, List.filter_map, Function.comp_def, hne]

/-! ## The account -/

/-- The history of a fleet accounts for the messages that were received, for those that are queued,
and for what the workers have in hand. -/
structure Accounted (policy : Policy) (f : Fleet) (got : List Message) : Prop where
  obeys : f.hub.policy = policy
  order : got <+: f.delivered.map Prod.snd
  queue : f.hub.bus.receiving = true → got ++ f.hub.bus.queue = f.delivered.map Prod.snd
  /-- Once nobody receives, nothing is queued any more. -/
  lost : f.hub.bus.receiving = false → f.hub.bus.queue = []
  carries : ∀ slot w, f.workers[slot]? = some w →
    Carries policy.readBufferSize f.hub.now w.phase (f.passages slot)
  unknown : ∀ slot, f.workers[slot]? = none → f.passages slot = []
  grouped : ∀ slot, f.deliveredBy slot = (f.passages slot).reverse.flatMap (·.queued)

/-- Nothing has happened in a new fleet. -/
theorem accounted_create {capacity : Nat} {bus : Bus Nat}
    (built : Bus.withCapacity Nat capacity = .ok bus) (policy : Policy) (network : Network)
    (counting spare : Bool) (addrs : List String) :
    Accounted policy ((create policy network bus counting spare).spawn addrs) [] := by
  obtain rfl := Bus.eq_of_withCapacity built
  refine ⟨rfl, List.nil_prefix, fun _ => rfl, fun _ => rfl, ?_, fun _ _ => rfl, fun _ => rfl⟩
  intro slot w hw
  obtain ⟨_, rfl⟩ : ∃ addr, w = { key := ⟨slot, addr⟩ } := by
    simp only [spawn, List.getElem?_mapIdx, Option.map_eq_some_iff] at hw
    obtain ⟨addr, -, rfl⟩ := hw
    exact ⟨addr, rfl⟩
  exact .nothing rfl fun p hp => by cases hp

namespace Accounted

variable {policy : Policy} {got : List Message}

/-- A step of a worker keeps the account. -/
theorem step {w : Worker} (h : Accounted policy f got) (pos : 0 < policy.readBufferSize)
    (hw : f.workers[slot]? = some w) (step : Transition f.hub w s) :
    Accounted policy (f.afterStep slot s) got := by
  have kept := kept_of_transition step
  have carried := h.carries slot w hw
  have sent : (f.afterStep slot s).delivered.map Prod.snd =
      f.delivered.map Prod.snd ++ s.messages := by
    rw [delivered_afterStep]
    simp [Function.comp_def]
  have grown : (f.afterStep slot s).hub.bus.queue = f.hub.bus.queue ++ s.messages :=
    queue_of_transition step
  constructor
  · exact kept.policy.trans h.obeys
  · rw [sent]
    exact h.order.trans (List.prefix_append _ _)
  · intro receiving
    rw [grown, sent, ← h.queue (kept.receiving ▸ receiving), List.append_assoc]
  · intro closed
    have closed : f.hub.bus.receiving = false := kept.receiving ▸ closed
    rw [grown, h.lost closed]
    rcases messages_of_transition step with none | ⟨-, receiving⟩
    · rw [none, List.append_nil]
    · rw [closed] at receiving
      cases receiving
  · intro other v hv
    show Carries policy.readBufferSize s.hub.now v.phase _
    rw [kept.now]
    by_cases hne : slot = other
    · subst hne
      obtain rfl : s.worker = v := by simpa [workers_afterStep_self s hw] using hv
      rw [passages_afterStep_self, ← h.obeys] at *
      exact carried.transition step pos
    · rw [passages, log_afterStep_of_ne hne]
      exact h.carries other v (by rwa [workers_afterStep_of_ne f s hne] at hv)
  · intro other none
    have hne : slot ≠ other := by
      rintro rfl
      simp [workers_afterStep_self s hw] at none
    rw [passages, log_afterStep_of_ne hne]
    exact h.unknown other (by rwa [workers_afterStep_of_ne f s hne] at none)
  · intro other
    by_cases hne : slot = other
    · subst hne
      rw [deliveredBy_afterStep_self, passages_afterStep_self, carried.flatMap_queued step,
        h.grouped]
    · rw [deliveredBy_afterStep_of_ne hne, passages, log_afterStep_of_ne hne, h.grouped, passages]

/-- What does not concern the workers and their history keeps the account, if the queue does. -/
theorem withHub {more : List Message} (h : Accounted policy f got) (hub : Hub)
    (obeys : hub.policy = f.hub.policy) (now : f.hub.now ≤ hub.now)
    (order : got ++ more <+: f.delivered.map Prod.snd)
    (queue : hub.bus.receiving = true → got ++ more ++ hub.bus.queue = f.delivered.map Prod.snd)
    (lost : hub.bus.receiving = false → hub.bus.queue = []) :
    Accounted policy { f with hub } (got ++ more) :=
  ⟨obeys.trans h.obeys, order, queue, lost, fun slot w hw => (h.carries slot w hw).later now,
    h.unknown, h.grouped⟩

/-- Whatever happens keeps the account. -/
theorem act {g : Fleet} {a : Act} (h : Accounted policy f got) (pos : 0 < policy.readBufferSize)
    (ha : f.act? a = some g) : Accounted policy g (got ++ f.takes a) := by
  have quiet : ∀ hub : Hub, hub.policy = f.hub.policy → f.hub.now ≤ hub.now →
      hub.bus.queue = f.hub.bus.queue → hub.bus.receiving = f.hub.bus.receiving →
      Accounted policy { f with hub } (got ++ []) := by
    intro hub obeys now queue receiving
    refine h.withHub hub obeys now (by simpa using h.order) ?_ ?_
    · simpa [queue, receiving] using h.queue
    · simpa [queue, receiving] using h.lost
  cases change_of_act? ha with
  | step worker step => simpa [takes] using h.step pos worker (transition_of_step? step)
  | @receive m bus taken =>
    have head := Bus.queue_of_take? taken
    obtain ⟨-, receiving, -⟩ := Bus.frame_of_take? taken
    have alive : f.hub.bus.receiving = true := by
      cases closed : f.hub.bus.receiving with
      | true => rfl
      | false => simp [h.lost closed] at head
    have all : got ++ [m] ++ bus.queue = f.delivered.map Prod.snd := by
      rw [List.append_assoc, List.singleton_append, ← head, h.queue alive]
    have takes : f.takes .receive = [m] := by simp [takes, receive?, taken]
    rw [takes]
    refine h.withHub { f.hub with bus } rfl (Nat.le_refl _) ?_ (fun _ => all) ?_
    · exact ⟨bus.queue, all⟩
    · intro closed
      simp [receiving, alive] at closed
  | stop => exact quiet _ rfl (Nat.le_refl _) rfl rfl
  | closeAll => exact quiet _ rfl (Nat.le_refl _) rfl rfl
  | closeBus => exact quiet _ rfl (Nat.le_refl _) rfl rfl
  | dropReceivers =>
    refine h.withHub _ rfl (Nat.le_refl _) (by simpa [takes] using h.order) ?_ fun _ => rfl
    intro receiving
    cases receiving
  | @clock _ t moves later =>
    have takes : f.takes a = [] := by rcases moves with rfl | rfl <;> rfl
    rw [takes]
    exact quiet { f.hub with now := t } rfl later rfl rfl

theorem run {g : Fleet} {acts : List Act} (h : Accounted policy f got)
    (pos : 0 < policy.readBufferSize) (ran : f.run? acts = some g) :
    Accounted policy g (got ++ f.received acts) := by
  induction acts generalizing f got with
  | nil =>
    cases ran
    simpa [received] using h
  | cons a acts ih =>
    obtain ⟨f', ha, ran⟩ := Option.bind_eq_some_iff.1 ran
    simp only [received, ha]
    rw [← List.append_assoc]
    exact ih (h.act pos ha) ran

/-- All connections of a worker are faithful, the latest one with what the worker has in hand. -/
theorem faithful (h : Accounted policy f got) (slot : Nat) :
    (∀ p ∈ (f.passages slot).head?, p.Faithful policy.readBufferSize f.hub.now (f.inHand slot)) ∧
      ∀ p ∈ (f.passages slot).tail, p.Faithful policy.readBufferSize f.hub.now none := by
  cases hw : f.workers[slot]? with
  | none => simp [h.unknown slot hw]
  | some w =>
    have carries := h.carries slot w hw
    have hand : f.inHand slot = w.phase.inHand := by simp [inHand, hw]
    rw [hand]
    generalize w.phase = phase, f.passages slot = ps at carries
    cases carries with
    | nothing shut past =>
      have hand : phase.inHand = none := by cases phase <;> first | rfl | cases shut
      rw [hand]
      exact ⟨fun p hp => past p (List.mem_of_mem_head? hp),
        fun p hp => past p (List.mem_of_mem_tail hp)⟩
    | reading current past =>
      exact ⟨fun p hp => by cases hp; exact current.faithful, past⟩
    | delivering current past =>
      exact ⟨fun p hp => by cases hp; exact current.faithful_of_held, past⟩

end Accounted

/-! ## The main statement -/

/-- **The bus carries what the peers sent.**  In every run of a fleet: what is received is what the
workers put on the bus, from its start and in order, and while somebody receives the rest is queued.
What a worker put on the bus is what it took off its connections, one after the other, and of each
connection it is what the peer sent: in pieces that fit the read buffer, without a gap, and up to
the last read; the last read is missing only when the worker still holds it or its delivery was
stopped or found nobody who receives, and nothing is missing when the reading ended because of the
peer. -/
theorem faithful_of_run {policy : Policy} {network : Network} {capacity : Nat} {bus : Bus Nat}
    {counting spare : Bool} {addrs : List String} {acts : List Act} {start f : Fleet}
    (valid : policy.check = .ok ()) (built : Bus.withCapacity Nat capacity = .ok bus)
    (new : start = (create policy network bus counting spare).spawn addrs)
    (ran : start.run? acts = some f) :
    start.received acts <+: f.delivered.map Prod.snd ∧
      (f.hub.bus.receiving = true →
        start.received acts ++ f.hub.bus.queue = f.delivered.map Prod.snd) ∧
      ∀ slot,
        f.deliveredBy slot = (f.passages slot).reverse.flatMap (·.queued) ∧
        (∀ p ∈ (f.passages slot).head?,
          p.Faithful policy.readBufferSize f.hub.now (f.inHand slot)) ∧
        ∀ p ∈ (f.passages slot).tail, p.Faithful policy.readBufferSize f.hub.now none := by
  have pos := Nat.pos_of_ne_zero ((policy.check_eq_ok_iff.1 valid).1)
  subst new
  have account := (accounted_create built policy network counting spare addrs).run pos ran
  rw [List.nil_append] at account
  exact ⟨account.order, account.queue, fun slot => ⟨account.grouped slot, account.faithful slot⟩⟩

/-- One worker with a read buffer for two bytes, a bus for one message, and a peer that sends three
bytes and ends. -/
def narrow : Fleet :=
  (create { readBufferSize := 2 }
    ⟨[("feed:1", [.settles 0 (.connected [(0, .sends [1, 2, 3]), (0, .ends)] none)])]⟩
    { capacity := 1 } true false).spawn ["feed:1"]

/-- The worker dials, connects and reads twice; the second piece has to wait until the first one is
received; then the worker comes to the end of the stream. -/
def narrowActs : List Act :=
  [.step 0, .step 0, .step 0, .step 0, .receive, .step 0, .step 0]

/-- The three bytes are on the bus although they had to be taken in two pieces, and one had to
wait. -/
theorem faithful_of_run_narrow :
    ∃ f, narrow.run? narrowActs = some f ∧
      Policy.check { readBufferSize := 2 } = .ok () ∧
      Bus.withCapacity Nat 1 = .ok { capacity := 1 } ∧
      (∀ p ∈ (f.passages 0).head?, p.Faithful 2 f.hub.now (f.inHand 0)) ∧
      (f.passages 0).map (·.queuedBytes) = [[1, 2, 3]] := by
  have some : (narrow.run? narrowActs).map (fun f => (f.passages 0).map (·.queuedBytes)) =
      some [[1, 2, 3]] := by decide +kernel
  obtain ⟨f, ran, sent⟩ := Option.map_eq_some_iff.1 some
  have valid : Policy.check { readBufferSize := 2 } = .ok () := rfl
  have built : Bus.withCapacity Nat 1 = .ok { capacity := 1 } := rfl
  have faithful := (faithful_of_run valid built rfl ran).2.2 0
  exact ⟨f, ran, valid, built, faithful.2.1, sent⟩

end FeedCapture.Fleet
