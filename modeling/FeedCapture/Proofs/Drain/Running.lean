import FeedCapture.Proofs.Drain.Draining

/-!
# Draining is a run of the consumer

What is drained from planned messages, whatever is chosen when a message and a tick are both there,
is what the consumer does in one of its runs.  So all that holds of its runs holds of draining.

## Main definitions

* `Exchange.Ready` — nothing is queued, nobody waits, and a sender is held
* `Drain.Loop.Follows` — the consumer comes to its end, and has done what a trace tells

The main statements are `Drain.exists_run?_run` and `Drain.messagesOf_run`.
-/

namespace FeedCapture

/-- Nothing is queued, nobody waits, and a sender and the receiving handle are held. -/
structure Exchange.Ready (capacity : Nat) (e : Exchange) : Prop where
  bus : e.bus = { capacity }
  senders : e.senders = ["s"]
  deliveries : e.deliveries = []
  receives : e.receives = []
  hasBus : e.hasBus = true
  hasStream : e.hasStream = true

namespace Drain

namespace Loop

variable {σ ε : Type} {sink : RecordSink σ ε} {c c' c'' : Loop σ ε} {capacity : Nat}

/-- Some acts lead from one state of the consumer to another. -/
def Leads (sink : RecordSink σ ε) (c c' : Loop σ ε) : Prop := ∃ acts, c.run? sink acts = some c'

theorem Leads.refl (c : Loop σ ε) : Leads sink c c := ⟨[], rfl⟩

theorem Leads.head {a : Act} (ha : c.act? sink a = some c') (rest : Leads sink c' c'') :
    Leads sink c c'' := by
  obtain ⟨acts, ran⟩ := rest
  exact ⟨a :: acts, by simp [run?, ha, ran]⟩

theorem Leads.trans (first : Leads sink c c') (rest : Leads sink c' c'') : Leads sink c c'' := by
  obtain ⟨acts, ran⟩ := first
  induction acts generalizing c with
  | nil =>
    cases ran
    exact rest
  | cons a acts ih =>
    obtain ⟨next, ha, ran⟩ := Option.bind_eq_some_iff.1 ran
    exact .head ha (ih ran)

/-! ## The acts one by one -/

theorem act?_pass {t : Instant} (later : c.state.now ≤ t) :
    c.act? sink (.pass t) = some { c with state := { c.state with now := t } } := if_pos later

/-- Others do something to the bus at which the consumer is not asked. -/
theorem act?_direct {s : Exchange.Step} (foreign : isForeign (.direct s) = true) :
    c.act? sink (.other (.direct s)) =
      some { c with
        exchange := (c.exchange.act s).1
        arrived := c.arrived ++ (Exchange.Turn.direct s).queued (c.exchange.act s).2.done } := by
  simp [act?, foreign, Exchange.turn?]

theorem act?_ask (empty : c.hand = none) (going : c.result = none)
    (held : c.exchange.hasStream = true) (nobody : c.exchange.receives = []) :
    c.act? sink .ask = some { c with exchange := { c.exchange with receives := [self] } } := by
  simp [act?, waits, asking, Exchange.act, empty, going, held, nobody]

theorem act?_receive {m : Message} {bus : Bus String} (empty : c.hand = none)
    (going : c.result = none) (line : c.exchange.receives = [self])
    (taken : c.exchange.bus.take? = some (m, bus)) :
    c.act? sink .receive =
      some { c with exchange := { c.exchange with bus, receives := [] }, hand := some m } := by
  simp [act?, waits, Exchange.turn?, empty, going, line, taken]

theorem act?_write {m : Message} (hand : c.hand = some m) :
    c.act? sink .write =
      some ({ c with hand := none }.after (writeStep sink c.state c.state.now m)) := by
  simp [act?, hand]

theorem dropReceive_of_nil (nobody : c.exchange.receives = []) : c.dropReceive = c := by
  have same : { c.exchange with receives := [] } = c.exchange := by rw [← nobody]
  simp only [dropReceive, nobody, List.filter_nil, same]

theorem act?_tick (empty : c.hand = none) (going : c.result = none) (due : c.tickDue = true)
    (nobody : c.exchange.receives = []) :
    c.act? sink .tick = some (c.after (flushStep sink c.state)) := by
  simp [act?, waits, empty, going, due, dropReceive_of_nil nobody]

theorem act?_finish (empty : c.hand = none) (going : c.result = none)
    (line : c.exchange.receives = [self]) (none : c.exchange.bus.take? = none)
    (gone : c.exchange.hasSender = false) :
    c.act? sink .finish =
      some ({ c with exchange := { c.exchange with receives := [] } }.close sink) := by
  simp [act?, waits, Exchange.turn?, empty, going, line, none, gone]

/-! ## What is drained, bit by bit -/

/-- The consumer sees a tick that comes before what is next. -/
theorem leads_tick (nobody : c.exchange.receives = []) (empty : c.hand = none)
    (going : c.result = none) {next : Instant} {choice : Bool}
    (first : tickFirst c.state next choice = true) :
    Leads sink c (c.after (flushStep sink c.state)) := by
  have dirty : c.state.dirty = true := (Bool.and_eq_true_iff.1 first).1
  have later : c.state.now ≤ max c.state.now c.state.ticker.due := Nat.le_max_left ..
  let passed : Loop σ ε :=
    { c with state := { c.state with now := max c.state.now c.state.ticker.due } }
  have due : passed.tickDue = true :=
    Bool.and_eq_true_iff.2 ⟨dirty, decide_eq_true (Nat.le_max_right ..)⟩
  have tick : passed.act? sink .tick = some (passed.after (flushStep sink passed.state)) :=
    act?_tick empty going due nobody
  simpa [passed, after, flushStep] using Leads.head (act?_pass later) (.head tick (.refl _))

/-- A message is put on the bus, received and written. -/
theorem leads_message (sink : RecordSink σ ε) (ready : c.exchange.Ready capacity)
    (room : 0 < capacity) (empty : c.hand = none) (going : c.result = none) (arrival : Instant)
    (m : Message) :
    ∃ exchange, exchange.Ready capacity ∧
      Leads sink c ({ c with exchange, arrived := c.arrived ++ [m] }.after
        (writeStep sink c.state arrival m)) := by
  obtain ⟨bus, senders, deliveries, receives, hasBus, hasStream⟩ := ready
  have free : ({ capacity } : Bus String).free ≠ 0 := by simpa [Bus.free] using Nat.ne_of_gt room
  let tokens := (c.exchange.tokens.resolve "t").1
  have delivered : c.act? sink (.other (.direct (.deliver "d" "s" "t" m))) =
      some { c with
        exchange := { c.exchange with tokens, bus := { capacity, queue := [m] } }
        arrived := c.arrived ++ [m] } := by
    simp [act?_direct (s := .deliver "d" "s" "t" m) rfl, Exchange.act, Exchange.startDelivery,
      Bus.offer, bus, senders, free, Exchange.Turn.queued, tokens]
  refine ⟨{ c.exchange with tokens }, ⟨bus, senders, deliveries, receives, hasBus, hasStream⟩,
    .head delivered (.head (act?_pass (Nat.le_max_left _ arrival)) ?_)⟩
  refine .head (act?_ask empty going hasStream receives) ?_
  refine .head (act?_receive empty going rfl rfl) (.head (act?_write rfl) ?_)
  simpa [after, writeStep, Bus.passOn, bus, receives, empty] using Leads.refl _

/-- Some acts lead from one state of the consumer to another, in which it has ended: more messages
were put on the bus, and it has done what a trace tells. -/
structure Follows (sink : RecordSink σ ε) (c : Loop σ ε) (messages : List Message)
    (trace : Trace σ ε) (c' : Loop σ ε) : Prop where
  leads : Leads sink c c'
  arrived : c'.arrived = c.arrived ++ messages
  events : c'.events = c.events ++ trace.events
  state : c'.state = trace.final
  result : c'.result = some trace.result

namespace Follows

variable {messages : List Message} {trace : Trace σ ε} {s : State σ × (Instant × Event ε)}

theorem tick (first : Leads sink c (c.after s))
    (rest : Follows sink (c.after s) messages trace c') :
    Follows sink c messages (trace.cons s.2) c' :=
  ⟨first.trans rest.leads, rest.arrived, by simpa [after, Trace.cons] using rest.events, rest.state,
    rest.result⟩

theorem message {exchange : Exchange} {m : Message}
    (first : Leads sink c ({ c with exchange, arrived := c.arrived ++ [m] }.after s))
    (rest : Follows sink ({ c with exchange, arrived := c.arrived ++ [m] }.after s) messages trace
      c') :
    Follows sink c (m :: messages) (trace.cons s.2) c' :=
  ⟨first.trans rest.leads, by simpa [after] using rest.arrived,
    by simpa [after, Trace.cons] using rest.events, rest.state, rest.result⟩

end Follows

/-- The last sender is given up, the bus is closed, and the consumer closes the sink. -/
theorem follows_end (sink : RecordSink σ ε) (c : Loop σ ε) (ready : c.exchange.Ready capacity)
    (empty : c.hand = none) (going : c.result = none) (ended : Instant) :
    ∃ c', Follows sink c [] (closeStep sink c.state ended) c' := by
  obtain ⟨bus, senders, deliveries, receives, hasBus, hasStream⟩ := ready
  have dropped : c.act? sink (.other (.direct (.dropSender "s"))) =
      some { c with exchange := { c.exchange with senders := [] } } := by
    simp [act?_direct (s := .dropSender "s") rfl, Exchange.act, senders, Exchange.Turn.queued]
  have closed : ({ c with exchange := { c.exchange with senders := [] } }).act? sink
      (.other (.direct .close)) = some { c with exchange := { c.exchange with
        senders := [], bus := { capacity, ownSender := false } } } := by
    simp [act?_direct (s := .close) rfl, Exchange.act, Bus.close, hasBus, bus,
      Exchange.Turn.queued]
  refine ⟨_, .head dropped (.head closed (.head (act?_pass (Nat.le_max_left _ ended)) (.head
    (act?_ask empty going hasStream receives) (.head (act?_finish empty going rfl rfl ?_)
      (.refl _))))), ?_, ?_, ?_, ?_⟩
  · simp [Exchange.hasSender, deliveries]
  all_goals simp [close, closeStep]

/-! ## Whole runs -/

/-- What is drained from planned messages is what the consumer does in a run, from wherever it has
come to. -/
theorem exists_follows_runFrom (sink : RecordSink σ ε) (c : Loop σ ε)
    (ready : c.exchange.Ready capacity) (room : 0 < capacity) (empty : c.hand = none)
    (going : c.result = none) (choices : Nat → Bool) (ended : Instant)
    (messages : List (Instant × Message)) :
    ∃ c', Follows sink c (messages.map Prod.snd) (runFrom sink c.state choices ended messages)
      c' := by
  induction messages generalizing c choices with
  | nil =>
    unfold runFrom
    split
    · next first =>
      obtain ⟨c', rest⟩ :=
        follows_end sink (c.after (flushStep sink c.state)) ready empty going ended
      exact ⟨c', .tick (leads_tick ready.receives empty going first) rest⟩
    · exact follows_end sink c ready empty going ended
  | cons head messages ih =>
    obtain ⟨arrival, m⟩ := head
    -- the message is written after the tick, if one is seen first, and the rest follows
    have written (c : Loop σ ε) (ready : c.exchange.Ready capacity) (empty : c.hand = none)
        (going : c.result = none) :
        ∃ c', Follows sink c (m :: messages.map Prod.snd)
          ((runFrom sink (writeStep sink c.state arrival m).1 (fun n => choices (n + 1)) ended
            messages).cons (writeStep sink c.state arrival m).2) c' := by
      obtain ⟨exchange, ready, first⟩ := leads_message sink ready room empty going arrival m
      let put : Loop σ ε := { c with exchange, arrived := c.arrived ++ [m] }
      obtain ⟨c', rest⟩ := ih (put.after (writeStep sink c.state arrival m)) ready empty going
        fun n => choices (n + 1)
      exact ⟨c', .message first rest⟩
    unfold runFrom
    split
    · next first =>
      obtain ⟨c', rest⟩ := written (c.after (flushStep sink c.state)) ready empty going
      exact ⟨c', .tick (leads_tick ready.receives empty going first) rest⟩
    · exact written c ready empty going

end Loop

variable {σ ε : Type} {sink : RecordSink σ ε}

/-- **Draining is a run of the consumer.**  Over any bus: what is drained from planned messages,
whatever is chosen, is what the consumer does when these messages are put on the bus. -/
theorem exists_run?_run (sink : RecordSink σ ε) {capacity : Nat} {bus : Bus String}
    (built : Bus.withCapacity String capacity = .ok bus) (first : σ) (ticker : Ticker)
    (choices : Nat → Bool) (messages : List (Instant × Message)) (ended : Instant) :
    ∃ acts c, (Loop.start bus ticker first).run? sink acts = some c ∧
      c.arrived = messages.map Prod.snd ∧
      c.events = (run sink first ticker choices messages ended).events ∧
      c.state = (run sink first ticker choices messages ended).final ∧
      c.result = some (run sink first ticker choices messages ended).result := by
  have room := Bus.pos_of_withCapacity built
  obtain rfl := Bus.eq_of_withCapacity built
  let start : Loop σ ε := Loop.start { capacity } ticker first
  have held : start.act? sink (.other (.direct (.sender "s"))) =
      some { start with exchange := { start.exchange with senders := ["s"] } } := rfl
  obtain ⟨c, leads, arrived, events, state, result⟩ := Loop.exists_follows_runFrom sink
    { start with exchange := { start.exchange with senders := ["s"] } }
    ⟨rfl, rfl, rfl, rfl, rfl, rfl⟩ room rfl rfl choices ended messages
  obtain ⟨acts, ran⟩ := Loop.Leads.head held leads
  exact ⟨acts, c, ran, arrived, events, state, result⟩

/-- Draining writes every planned message once and in order, and closes the sink once and at last;
it comes to the number of writes that succeeded, as far as 64 bits go, or to the failure to close. -/
theorem messagesOf_run {first : σ} {ticker : Ticker} {choices : Nat → Bool}
    {messages : List (Instant × Message)} {ended : Instant} {trace : Trace σ ε}
    (ran : run sink first ticker choices messages ended = trace) :
    messagesOf trace.events = messages.map Prod.snd ∧
      Performed sink first (trace.events.map Prod.snd) trace.final.sink ∧
      ∃ body t closing, trace.events = body ++ [(t, .closed closing)] ∧
        (∀ e ∈ body, e.2.isClose = false) ∧
        trace.result =
          closing.map fun _ => (body.countP fun e => e.2.acknowledged) % UInt64.size := by
  obtain ⟨acts, c, ran', arrived, events, state, result⟩ := exists_run?_run sink
    (show Bus.withCapacity String 1 = .ok { capacity := 1 } from rfl) first ticker choices messages
    ended
  rw [ran] at events state result
  have kept := (Loop.kept_start sink { capacity := 1 } ticker first rfl).run? ran'
  have last := kept.ended _ result
  have order := kept.order
  rw [last.empty, last.isOver.empty, arrived, events] at order
  rw [← events, ← state]
  exact ⟨by simpa [events] using order, kept.performed, last.last⟩

end Drain

end FeedCapture
