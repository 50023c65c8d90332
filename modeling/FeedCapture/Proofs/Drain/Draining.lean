import FeedCapture.Drain.Loop
import FeedCapture.Proofs.Exchange.Ends

/-!
# Every message is written once

Whatever others do to the bus, however late the consumer sees messages and ticks and whatever the
sink comes to: the consumer writes the messages in the order in which they were put on the bus, each
of them once, although it drops its receive at every tick.  When the messages are over it closes the
sink, once and at last, and it never waits while there is something for it to do.

## Main definitions

* `Drain.Performed` — calls of a sink in order, with what they come to
* `Drain.Loop.Change` — the acts that are possible, with what they come to
* `Drain.Loop.Kept` — what every act keeps

The main statement is `Drain.Loop.drains_of_run`.
-/

namespace FeedCapture

/-! ## What others do to the bus -/

namespace Exchange

variable {e e' : Exchange} {t : Turn} {done : List (String × Outcome)}

/-- What the direct part of a step puts on the bus comes after what is queued, unless the step
receives. -/
theorem queue_of_act (e : Exchange) {s : Step} (other : s ≠ .tryReceive) :
    (e.act s).1.bus.queue = e.bus.queue ++ (Turn.direct s).queued (e.act s).2.done := by
  cases s with
  | deliver id sender token m =>
    simp only [act]
    split
    · simp only [startDelivery]
      split
      · next bus offer =>
        obtain ⟨-, -, rfl⟩ := Bus.offer_eq_queued offer
        simp [Turn.queued]
      · next bus offer =>
        obtain ⟨-, rfl⟩ := Bus.offer_eq_closed offer
        simp [Turn.queued]
      · next bus offer =>
        obtain ⟨-, -, rfl⟩ := Bus.offer_eq_full offer
        simp [Turn.queued]
    · simp [Turn.queued]
  | tryReceive => exact absurd rfl other
  | _ =>
    simp only [act, Turn.queued, List.append_nil]
    repeat' split
    all_goals first | rfl | exact Bus.queue_leave ..

/-- A turn that receives nothing only adds to the queue, while somebody can receive. -/
theorem Turned.queue (turned : Turned e t e' done) (held : e.hasReceiver = true)
    (other : t ≠ .receive ∧ t ≠ .direct .tryReceive) :
    e'.bus.queue = e.bus.queue ++ t.queued done := by
  cases turned with
  | direct s => exact queue_of_act e fun same => other.2 (same ▸ rfl)
  | stopped waiting cancelled => simp [Turn.queued]
  | @claimed d bus outcome waiting going claim =>
    have queue := e.bus.queue_claim d.id d.message
    rw [claim] at queue
    cases outcome <;> simpa [Turn.queued] using queue
  | received line taken => exact absurd rfl other.1
  | ended line empty gone => exact absurd rfl other.1
  | letGo gone alive => simp [held] at gone

/-- Where the messages are over, a turn puts none on the bus, and they stay over. -/
theorem Over.turned (isOver : e.Over) (turned : Turned e t e' done) :
    e'.Over ∧ t.queued done = [] := by
  have none : ∀ {d : Pending}, d ∉ e.deliveries := by simp [isOver.deliveries]
  cases turned with
  | direct s =>
    obtain ⟨isOver, quiet, -⟩ := isOver.act s
    refine ⟨isOver, ?_⟩
    rw [quiet]
    cases s <;> rfl
  | stopped waiting => exact absurd waiting none
  | claimed waiting => exact absurd waiting none
  | received line taken =>
    have queue := Bus.queue_of_take? taken
    rw [isOver.empty] at queue
    cases queue
  | ended line empty gone =>
    exact ⟨⟨isOver.empty, isOver.own, isOver.senders, isOver.deliveries⟩, rfl⟩
  | letGo gone alive => exact ⟨⟨rfl, isOver.own, isOver.senders, isOver.deliveries⟩, rfl⟩

end Exchange

namespace Drain

open Exchange

variable {σ ε : Type}

/-! ## Calls of a sink -/

/-- The sink goes from one state to another by the calls of some events, each with the message's own
data and time and with the result that the event tells. -/
inductive Performed (sink : RecordSink σ ε) : σ → List (Event ε) → σ → Prop where
  | nil (s : σ) : Performed sink s [] s
  | wrote {first s : σ} {events : List (Event ε)} {m : Message}
      (before : Performed sink first events s) :
      Performed sink first (events ++ [.wrote m (sink.write s m.data m.timestamp).2])
        (sink.write s m.data m.timestamp).1
  | flushed {first s : σ} {events : List (Event ε)} (before : Performed sink first events s) :
      Performed sink first (events ++ [.flushed (sink.flush s).2]) (sink.flush s).1
  | closed {first s : σ} {events : List (Event ε)} (before : Performed sink first events s) :
      Performed sink first (events ++ [.closed (sink.close s).2]) (sink.close s).1

/-- The event is a write that succeeded. -/
def Event.acknowledged : Event ε → Bool
  | .wrote _ result => succeeded result
  | _ => false

/-- The event closes the sink. -/
def Event.isClose : Event ε → Bool
  | .closed _ => true
  | _ => false

/-- The messages that some events write, in order. -/
def messagesOf (events : List (Instant × Event ε)) : List Message :=
  events.filterMap fun e => e.2.message?

namespace Loop

/-! ## What comes of the acts -/

/-- The acts that are possible, with what they come to. -/
inductive Change (sink : RecordSink σ ε) (c : Loop σ ε) : Act → Loop σ ε → Prop where
  | other {t : Turn} {exchange : Exchange} {done : List (String × Outcome)}
      (isForeign : isForeign t = true) (turned : Turned c.exchange t exchange done) :
      Change sink c (.other t) { c with exchange, arrived := c.arrived ++ t.queued done }
  | pass {t : Instant} (later : c.state.now ≤ t) :
      Change sink c (.pass t) { c with state := { c.state with now := t } }
  | ask (empty : c.hand = none) (going : c.result = none) (idle : c.asking = false) :
      Change sink c .ask { c with exchange := (c.exchange.act (.receive self)).1 }
  | receive {id : String} {receives : List String} {m : Message} {bus : Bus String}
      (empty : c.hand = none) (going : c.result = none)
      (line : c.exchange.receives = id :: receives)
      (taken : c.exchange.bus.take? = some (m, bus)) :
      Change sink c .receive
        { c with exchange := { c.exchange with bus, receives }, hand := some m }
  | write {m : Message} (hand : c.hand = some m) :
      Change sink c .write
        ({ c with hand := none }.after (writeStep sink c.state c.state.now m))
  | tick (empty : c.hand = none) (going : c.result = none) (due : c.tickDue = true) :
      Change sink c .tick (c.dropReceive.after (flushStep sink c.state))
  | finish {id : String} {receives : List String} (empty : c.hand = none) (going : c.result = none)
      (line : c.exchange.receives = id :: receives) (none : c.exchange.bus.take? = none)
      (gone : c.exchange.hasSender = false) :
      Change sink c .finish ({ c with exchange := { c.exchange with receives } }.close sink)

variable {sink : RecordSink σ ε} {c c' : Loop σ ε} {a : Act}

theorem waits_iff : c.waits = true ↔ c.hand = none ∧ c.result = none := by
  simp [waits]

theorem change_of_act? (h : c.act? sink a = some c') : c.Change sink a c' := by
  cases a with
  | other t =>
    simp only [act?, Option.ite_none_right_eq_some] at h
    obtain ⟨⟨exchange, done⟩, turn, rfl⟩ := Option.map_eq_some_iff.1 h.2
    exact .other h.1 (turned_of_turn? turn)
  | pass t =>
    simp only [act?, Option.ite_none_right_eq_some, Option.some.injEq] at h
    obtain ⟨later, rfl⟩ := h
    exact .pass later
  | ask =>
    simp only [act?, Option.ite_none_right_eq_some, Option.some.injEq, Bool.and_eq_true,
      Bool.not_eq_true'] at h
    obtain ⟨⟨waits, idle⟩, rfl⟩ := h
    exact .ask (waits_iff.1 waits).1 (waits_iff.1 waits).2 idle
  | receive =>
    simp only [act?, Option.ite_none_right_eq_some] at h
    obtain ⟨waits, h⟩ := h
    split at h
    · next exchange id m turn =>
      cases h
      cases turned_of_turn? turn with
      | received line taken => exact .receive (waits_iff.1 waits).1 (waits_iff.1 waits).2 line taken
    · cases h
  | write =>
    obtain ⟨m, hand, rfl⟩ := Option.map_eq_some_iff.1 h
    exact .write hand
  | tick =>
    simp only [act?, Option.ite_none_right_eq_some, Option.some.injEq, Bool.and_eq_true] at h
    obtain ⟨⟨waits, due⟩, rfl⟩ := h
    exact .tick (waits_iff.1 waits).1 (waits_iff.1 waits).2 due
  | finish =>
    simp only [act?, Option.ite_none_right_eq_some] at h
    obtain ⟨waits, h⟩ := h
    split at h
    · next exchange id turn =>
      cases h
      cases turned_of_turn? turn with
      | ended line none gone =>
        exact .finish (waits_iff.1 waits).1 (waits_iff.1 waits).2 line none gone
    · cases h

/-! ## What every act keeps -/

/-- How a consumer has ended: the messages are over, and the last thing that it did was to close the
sink; nothing before that did.  The count of writes that it comes to has 64 bits. -/
structure Ended (c : Loop σ ε) (result : Except ε Nat) : Prop where
  isOver : c.exchange.Over
  empty : c.hand = none
  last : ∃ body t closing, c.events = body ++ [(t, .closed closing)] ∧
    (∀ e ∈ body, e.2.isClose = false) ∧
    result = closing.map fun _ => (body.countP fun e => e.2.acknowledged) % UInt64.size

/-- What every act keeps: the messages that were put on the bus are those written, the one in hand
and those queued, in this order, and the sink is where the events have brought it. -/
structure Kept (sink : RecordSink σ ε) (first : σ) (c : Loop σ ε) : Prop where
  performed : Performed sink first (c.events.map Prod.snd) c.state.sink
  order : messagesOf c.events ++ c.hand.toList ++ c.exchange.bus.queue = c.arrived
  counted : c.result = none → c.state.written = .ofNat (c.events.countP fun e => e.2.acknowledged)
  /-- At most one receive is under way, and only while the consumer waits. -/
  line : c.exchange.receives = [] ∨ c.exchange.receives = [self] ∧ c.hand = none ∧ c.result = none
  stream : c.result = none → c.exchange.hasStream = true
  going : c.result = none → ∀ e ∈ c.events, e.2.isClose = false
  ended : ∀ result, c.result = some result → c.Ended result

/-- Others leave the consumer's receive and its receiving handle alone. -/
theorem untouched_of_isForeign {e e' : Exchange} {t : Turn} {done : List (String × Outcome)}
    (foreign : isForeign t = true) (turned : Turned e t e' done)
    (line : e.receives = [] ∨ e.receives = [self]) :
    e'.receives = e.receives ∧ e'.hasStream = e.hasStream := by
  cases turned with
  | direct s =>
    cases s with
    | receive id => cases foreign
    | tryReceive => cases foreign
    | dropStream => cases foreign
    | abort id =>
      have other : ∀ r ∈ e.receives, r ≠ id := by
        have : self ≠ id := Ne.symm (by simpa [isForeign] using foreign)
        rcases line with line | line <;> simp [line, this]
      have unknown : id ∉ e.receives := fun mem => other id mem rfl
      simp only [act, unknown, if_false]
      split <;> exact ⟨rfl, rfl⟩
    | _ =>
      simp only [act, startDelivery]
      repeat' split
      all_goals trivial
  | received line taken => cases foreign
  | ended line empty gone => cases foreign
  | _ => exact ⟨rfl, rfl⟩

theorem kept_start (sink : RecordSink σ ε) (bus : Bus String) (ticker : Ticker) (first : σ)
    (empty : bus.queue = []) : Kept sink first (start bus ticker first) :=
  ⟨.nil first, by simp [start, ofBus, messagesOf, empty], fun _ => rfl, .inl rfl, fun _ => rfl,
    fun _ => by simp [start], fun _ h => by cases h⟩

/-- A consumer that goes on has not ended. -/
theorem ended_of_going {c : Loop σ ε} (going : c.result = none) :
    ∀ result, c.result = some result → c.Ended result := by
  simp [going]

namespace Kept

variable {first : σ}

/-- Nobody but the consumer receives. -/
theorem nobody_else (h : c.Kept sink first) {id : String} {receives : List String}
    (line : c.exchange.receives = id :: receives) : receives = [] := by
  rcases h.line with nobody | ⟨one, -⟩
  · simp [nobody] at line
  · exact (List.cons.inj (line.symm.trans one)).2

theorem other (h : c.Kept sink first) {t : Turn} {exchange : Exchange}
    {done : List (String × Outcome)} (foreign : isForeign t = true)
    (turned : Turned c.exchange t exchange done) :
    Kept sink first { c with exchange, arrived := c.arrived ++ t.queued done } := by
  obtain ⟨receives, stream⟩ := untouched_of_isForeign foreign turned (h.line.imp_right And.left)
  have order : messagesOf c.events ++ c.hand.toList ++ exchange.bus.queue =
      c.arrived ++ t.queued done := by
    cases ends : c.result with
    | none =>
      have held : c.exchange.hasReceiver = true := by simp [hasReceiver, h.stream ends]
      have other : t ≠ .receive ∧ t ≠ .direct .tryReceive := by
        constructor <;> (rintro rfl; cases foreign)
      rw [turned.queue held other, ← List.append_assoc, h.order]
    | some result =>
      have isOver := (h.ended result ends).isOver
      obtain ⟨isOver', none⟩ := isOver.turned turned
      simp [isOver'.empty, none, ← h.order, isOver.empty]
  exact ⟨h.performed, order, h.counted, receives ▸ h.line, stream ▸ h.stream, h.going,
    fun result ends =>
      { h.ended result ends with isOver := ((h.ended result ends).isOver.turned turned).1 }⟩

theorem ask (h : c.Kept sink first) (empty : c.hand = none) (going : c.result = none)
    (idle : c.asking = false) :
    Kept sink first { c with exchange := (c.exchange.act (.receive self)).1 } := by
  have nobody : c.exchange.receives = [] := h.line.resolve_right fun c' => by
    simp [asking, c'.1] at idle
  have asked : c.exchange.act (.receive self) =
      ({ c.exchange with receives := [self] }, ⟨.ok, [], []⟩) := by
    simp [Exchange.act, h.stream going, nobody]
  rw [asked]
  exact ⟨h.performed, h.order, h.counted, .inr ⟨rfl, empty, going⟩, h.stream, h.going,
    ended_of_going going⟩

theorem receive (h : c.Kept sink first) {id : String} {receives : List String} {m : Message}
    {bus : Bus String} (empty : c.hand = none) (going : c.result = none)
    (line : c.exchange.receives = id :: receives)
    (taken : c.exchange.bus.take? = some (m, bus)) :
    Kept sink first { c with exchange := { c.exchange with bus, receives }, hand := some m } := by
  have order := h.order
  simp only [empty, Option.toList_none, List.append_nil, Bus.queue_of_take? taken] at order
  exact ⟨h.performed, by simpa using order, h.counted, .inl (h.nobody_else line), h.stream,
    h.going, ended_of_going going⟩

theorem write (h : c.Kept sink first) {m : Message} (hand : c.hand = some m) :
    Kept sink first ({ c with hand := none }.after (writeStep sink c.state c.state.now m)) := by
  have going : c.result = none := by
    cases ends : c.result with
    | none => rfl
    | some result => simp [(h.ended result ends).empty] at hand
  have order := h.order
  have nobody : c.exchange.receives = [] := h.line.resolve_right fun c' => by
    simp [c'.2.1] at hand
  refine ⟨?_, ?_, fun _ => ?_, .inl nobody, h.stream, fun _ => ?_, ended_of_going going⟩
  · simpa [after, writeStep] using h.performed.wrote
  · simpa [after, writeStep, hand, messagesOf, Event.message?] using order
  · simp only [after, writeStep, List.countP_append, UInt64.ofNat_add, ← h.counted going]
    cases wrote : succeeded (sink.write c.state.sink m.data m.timestamp).2 <;>
      simp [Event.acknowledged, wrote]
  · have before := h.going going
    simpa [after, writeStep, or_imp, forall_and, Event.isClose] using before

theorem tick (h : c.Kept sink first) (going : c.result = none) :
    Kept sink first (c.dropReceive.after (flushStep sink c.state)) := by
  refine ⟨?_, ?_, fun _ => ?_, .inl ?_, h.stream, fun _ => ?_, ended_of_going going⟩
  · simpa [after, flushStep, dropReceive] using h.performed.flushed
  · simpa [after, flushStep, dropReceive, messagesOf, Event.message?] using h.order
  · simp [after, flushStep, dropReceive, h.counted going, Event.acknowledged]
  · rcases h.line with nobody | ⟨one, -⟩
    · simp [after, dropReceive, nobody]
    · simp [after, dropReceive, one]
  · have before := h.going going
    simpa [after, flushStep, dropReceive, or_imp, forall_and, Event.isClose] using before

theorem finish (h : c.Kept sink first) {id : String} {receives : List String}
    (empty : c.hand = none) (going : c.result = none) (line : c.exchange.receives = id :: receives)
    (vacant : c.exchange.bus.take? = none) (gone : c.exchange.hasSender = false) :
    Kept sink first ({ c with exchange := { c.exchange with receives } }.close sink) := by
  have queue : c.exchange.bus.queue = [] := Bus.take?_eq_none_iff.1 vacant
  have deliveries : c.exchange.deliveries = [] := by
    simp only [hasSender, Bool.or_eq_false_iff, Bool.not_eq_eq_eq_not, Bool.not_false,
      List.isEmpty_iff] at gone
    exact gone.2
  obtain ⟨-, own, senders, -⟩ := over_iff.2 ⟨queue, gone, deliveries⟩
  have closed : (close sink c).result ≠ none := Option.some_ne_none _
  refine ⟨?_, ?_, (absurd · closed), .inl (h.nobody_else line), (absurd · closed),
    (absurd · closed), fun result ends => ?_⟩
  · simpa [close, closeStep] using h.performed.closed
  · simpa [close, closeStep, messagesOf, Event.message?, Exchange.act] using h.order
  · refine ⟨⟨queue, own, senders, deliveries⟩, empty, c.events, max c.state.now c.state.now,
      (sink.close c.state.sink).2, rfl, h.going going, ?_⟩
    have same : (sink.close c.state.sink).2.map (fun _ => c.state.written.toNat) = result := by
      simpa [close, closeStep] using ends
    rw [← same, h.counted going]
    rfl

/-- Every act keeps what there is to keep. -/
theorem act? (h : c.Kept sink first) (ha : c.act? sink a = some c') : c'.Kept sink first := by
  cases change_of_act? ha with
  | other foreign turned => exact h.other foreign turned
  | pass later =>
    exact ⟨h.performed, h.order, h.counted, h.line, h.stream, h.going, fun result ends =>
      { h.ended result ends with }⟩
  | ask empty going idle => exact h.ask empty going idle
  | receive empty going line taken => exact h.receive empty going line taken
  | write hand => exact h.write hand
  | tick empty going due => exact h.tick going
  | finish empty going line vacant gone => exact h.finish empty going line vacant gone

/-- The messages and the sink are accounted for after every run. -/
theorem run? {acts : List Act} (h : c.Kept sink first)
    (ran : c.run? sink acts = some c') : c'.Kept sink first :=
  preserved_of_run? (P := Kept sink first) (fun h ha => h.act? ha) h ran

end Kept

/-! ## The consumer never waits in vain -/

/-- The acts that the consumer has still to take for what it has and for what is queued.  For a
message these are five: to ask, receive and write, and to flush and ask again. -/
def effort (c : Loop σ ε) : Nat :=
  5 * c.exchange.bus.queue.length + 3 * c.hand.isSome.toNat + 2 * c.state.dirty.toNat +
    (!c.asking).toNat + 2 * c.result.isNone.toNat

/-- An act of the consumer uses some of its effort up, and only messages that arrive add to it. -/
theorem effort_of_act? {first : σ} (h : c.Kept sink first) (ha : c.act? sink a = some c') :
    a.isOwn.toNat + c'.effort + 5 * c.arrived.length ≤ c.effort + 5 * c'.arrived.length := by
  have atMost : ∀ b : Bool, b.toNat ≤ 1 := Bool.toNat_le
  cases change_of_act? ha with
  | @other t exchange done foreign turned =>
    have before := congrArg List.length h.order
    have after := congrArg List.length (h.act? ha).order
    have receives := (untouched_of_isForeign foreign turned (h.line.imp_right And.left)).1
    simp only [List.length_append] at before after
    simp only [effort, asking, receives, List.length_append, Act.isOwn, Bool.toNat_false]
    omega
  | pass later => simp [effort, asking, Act.isOwn]
  | ask empty going idle =>
    have asked : (c.exchange.act (.receive self)).1 =
        { c.exchange with receives := c.exchange.receives ++ [self] } := by
      simp [Exchange.act, h.stream going]
    have asks : (c.exchange.receives ++ [self]).contains self = true := by simp
    have idle : c.exchange.receives.contains self = false := idle
    simp only [effort, asking, asked, asks, idle, Bool.not_true, Bool.not_false, Bool.toNat_true,
      Bool.toNat_false, Act.isOwn]
    omega
  | @receive id receives m bus empty going line taken =>
    have := atMost (!receives.contains self)
    simp only [effort, asking, Bus.queue_of_take? taken, empty, List.length_cons,
      Option.isSome_some, Option.isSome_none, Bool.toNat_true, Bool.toNat_false, Act.isOwn]
    omega
  | @write m hand =>
    have := atMost (writeStep sink c.state c.state.now m).1.dirty
    simp only [effort, hand, after, asking, Option.isSome_some, Option.isSome_none,
      Bool.toNat_true, Bool.toNat_false, Act.isOwn]
    omega
  | tick empty going due =>
    have := atMost (!(c.exchange.receives.filter fun id => id ≠ self).contains self)
    have dirty : c.state.dirty = true := (Bool.and_eq_true_iff.1 due).1
    simp only [effort, dirty, after, dropReceive, flushStep, asking, Bool.toNat_true,
      Bool.toNat_false, Act.isOwn]
    omega
  | @finish id receives empty going line none gone =>
    have := atMost (!receives.contains self)
    simp only [effort, going, close, closeStep, Exchange.act, asking, Option.isNone_none,
      Option.isNone_some, Bool.toNat_true, Bool.toNat_false, Act.isOwn]
    omega

/-- However a run interleaves them, the acts of the consumer are no more than its effort allows. -/
theorem countP_isOwn_add_effort_le {first : σ} {acts : List Act} (h : c.Kept sink first)
    (ran : c.run? sink acts = some c') :
    acts.countP Act.isOwn + c'.effort + 5 * c.arrived.length ≤
      c.effort + 5 * c'.arrived.length := by
  induction acts generalizing c with
  | nil =>
    cases ran
    simp
  | cons a acts ih =>
    obtain ⟨next, ha, ran⟩ := Option.bind_eq_some_iff.1 ran
    have first := effort_of_act? h ha
    have rest := ih (h.act? ha) ran
    have own : (if a.isOwn = true then 1 else 0) = a.isOwn.toNat := by cases a.isOwn <;> rfl
    rw [List.countP_cons, own]
    omega

/-- The consumer has nothing to do exactly when it has ended, or when its receive is under way while
nothing is queued, somebody can still send, and no tick is there for it. -/
theorem forall_isOwn_iff {first : σ} (h : c.Kept sink first) :
    (∀ a, a.isOwn = true → c.act? sink a = none) ↔
      c.result.isSome = true ∨
        c.asking = true ∧ c.exchange.bus.queue = [] ∧ c.exchange.hasSender = true ∧
          c.tickDue = false := by
  constructor
  · intro stuck
    cases going : c.result with
    | some result => exact .inl rfl
    | none =>
      refine .inr ?_
      have empty : c.hand = none := by
        cases hand : c.hand with
        | none => rfl
        | some m =>
          have := stuck .write rfl
          simp [act?, hand] at this
      have waits : c.waits = true := waits_iff.2 ⟨empty, going⟩
      have asking : c.asking = true := by
        have := stuck .ask rfl
        simpa [act?, waits] using this
      have line : c.exchange.receives = [self] := by
        rcases h.line with none | one
        · simp [Loop.asking, none] at asking
        · exact one.1
      have queue : c.exchange.bus.queue = [] := by
        cases queue : c.exchange.bus.queue with
        | nil => rfl
        | cons m rest =>
          have := stuck .receive rfl
          simp [act?, waits, turn?, line, Bus.take?, queue] at this
      refine ⟨asking, queue, ?_, ?_⟩
      · cases sender : c.exchange.hasSender with
        | true => rfl
        | false =>
          have := stuck .finish rfl
          simp [act?, waits, turn?, line, Bus.take?, queue, sender] at this
      · have := stuck .tick rfl
        simpa [act?, waits] using this
  · rintro (ended | ⟨asking, queue, sender, quiet⟩) a own
    · obtain ⟨result, ends⟩ := Option.isSome_iff_exists.1 ended
      have empty := (h.ended result ends).empty
      cases a with
      | other t => cases own
      | pass t => cases own
      | _ => simp [act?, Loop.waits, ends, empty]
    · obtain ⟨line, empty, going⟩ := h.line.resolve_left fun none => by
        simp [Loop.asking, none] at asking
      cases a with
      | other t => cases own
      | pass t => cases own
      | write => simp [act?, empty]
      | _ => simp [act?, Loop.waits, asking, quiet, turn?, line, Bus.take?, queue, sender]

/-! ## The main statement -/

variable {capacity : Nat} {bus : Bus String} {ticker : Ticker} {first : σ} {acts : List Act}

/-- **Every message is written once.**  Whatever happens around a consumer at a new bus, and
whatever the sink comes to: the sink is where the calls of the events bring it, and the messages
that were put on the bus are those written, the one in hand and those queued, in this order.  The
consumer takes five acts for each message and three more at most, and it waits only while nothing is
there for it to do.  Once it has ended, the messages are over and all of them are written, the sink
was closed once and after everything else, and the result is the number of writes that succeeded, as
far as 64 bits go, or the failure to close. -/
theorem drains_of_run (built : Bus.withCapacity String capacity = .ok bus)
    (ran : (start bus ticker first).run? sink acts = some c) :
    Performed sink first (c.events.map Prod.snd) c.state.sink ∧
      messagesOf c.events ++ c.hand.toList ++ c.exchange.bus.queue = c.arrived ∧
      acts.countP Act.isOwn ≤ 5 * c.arrived.length + 3 ∧
      ((∀ a, a.isOwn = true → c.act? sink a = none) ↔
        c.result.isSome = true ∨
          c.asking = true ∧ c.exchange.bus.queue = [] ∧ c.exchange.hasSender = true ∧
            c.tickDue = false) ∧
      (c.result = none → ∀ e ∈ c.events, e.2.isClose = false) ∧
      ∀ result, c.result = some result → messagesOf c.events = c.arrived ∧ c.Ended result := by
  obtain rfl := Bus.eq_of_withCapacity built
  have start_ := kept_start sink { capacity } ticker first rfl
  have kept := start_.run? ran
  have counted := countP_isOwn_add_effort_le start_ ran
  have three : (start { capacity } ticker first : Loop σ ε).effort = 3 := rfl
  have none : (start { capacity } ticker first : Loop σ ε).arrived = [] := rfl
  rw [three, none, List.length_nil] at counted
  refine ⟨kept.performed, kept.order, by omega, forall_isOwn_iff kept, kept.going, ?_⟩
  intro result ends
  have ended := kept.ended result ends
  refine ⟨?_, ended⟩
  simpa [ended.empty, ended.isOver.empty] using kept.order

/-- A consumer whose receive is dropped at a tick; the flush at the tick fails, and so does the
second of three writes, for a message whose receive lets the third one onto the bus. -/
def interrupted : List Act :=
  [.other (.direct (.sender "s")), .ask,
    .other (.direct (.deliver "a" "s" "t" ⟨"feed:1", [1], 0⟩)), .receive, .write, .ask, .tick,
    .other (.direct (.deliver "b" "s" "t" ⟨"feed:1", [2], 0⟩)),
    .other (.direct (.deliver "c" "s" "t" ⟨"feed:1", [3], 0⟩)), .ask, .receive, .write,
    .other (.delivery ⟨"c", ⟨"feed:1", [3], 0⟩, 0⟩), .other (.direct (.dropSender "s")), .ask,
    .pass 7, .receive, .write, .other (.direct .close), .ask, .finish]

/-- All three messages are written, the second one in vain, and the result is two. -/
theorem drains_of_run_interrupted :
    ∃ bus c, Bus.withCapacity String 1 = .ok bus ∧
      (start bus { period := 5 } { failingWrites := [1], failingFlushes := [0] }).run?
        ScriptedSink.sink interrupted = some c ∧
      messagesOf c.events = [⟨"feed:1", [1], 0⟩, ⟨"feed:1", [2], 0⟩, ⟨"feed:1", [3], 0⟩] ∧
      c.Ended (.ok 2) := by
  obtain ⟨bus, built⟩ : ∃ bus, Bus.withCapacity String 1 = .ok bus := ⟨_, rfl⟩
  have told : ((start bus { period := 5 }
      ({ failingWrites := [1], failingFlushes := [0] } : ScriptedSink)).run?
        ScriptedSink.sink interrupted).map
      (fun c => (c.arrived, c.result.map Except.toOption)) =
        some ([⟨"feed:1", [1], 0⟩, ⟨"feed:1", [2], 0⟩, ⟨"feed:1", [3], 0⟩], some (some 2)) := by
    cases built
    decide +kernel
  obtain ⟨c, ran, same⟩ := Option.map_eq_some_iff.1 told
  obtain ⟨arrived, ended⟩ := Prod.mk.inj same
  have result : c.result = some (.ok 2) := by
    obtain ⟨result, here, value⟩ := Option.map_eq_some_iff.1 ended
    cases result with
    | error e => cases value
    | ok k =>
      cases value
      exact here
  obtain ⟨-, -, -, -, -, all⟩ := drains_of_run built ran
  obtain ⟨written, ended⟩ := all _ result
  exact ⟨bus, c, built, ran, written.trans arrived, ended⟩

end Loop

end Drain

end FeedCapture
