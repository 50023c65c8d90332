import FeedCapture.Bus.Turn
import FeedCapture.Drain

/-!
# The consumer at its bus

The consumer that drains messages, act by act, beside everybody else who uses the bus.  In every
round it starts a receive and waits for a message or for a tick; when it sees the tick first, it
drops the receive and starts another one in the next round.  What others do to the bus, the passing
of time and the acts of the consumer may come in any order.  So the runs are all ways in which they
can interleave, whatever the consumer sees first when a message and a tick are both there.

## Main definitions

* `Drain.Loop`, with `Drain.Loop.start`
* `Drain.Act`, `Drain.Loop.act?` — what can happen, and what comes of it
* `Drain.Loop.run?` — what comes of several acts in order
-/

namespace FeedCapture

/-- The messages that a turn puts on the bus, when these tasks end with it. -/
def Exchange.Turn.queued : Turn → List (String × Outcome) → List Message
  | .direct (.deliver id _ _ m), done => if (id, .delivery .delivered) ∈ done then [m] else []
  | .delivery d, done => if (d.id, .delivery .delivered) ∈ done then [d.message] else []
  | _, _ => []

namespace Drain

/-- The consumer and the bus that it receives from. -/
structure Loop (σ ε : Type) where
  exchange : Exchange
  /-- The messages that were put on the bus, in order. -/
  arrived : List Message := []
  /-- The message that is received and not written yet. -/
  hand : Option Message := none
  state : State σ
  /-- What the consumer did to the sink, the earliest first. -/
  events : List (Instant × Event ε) := []
  /-- What the consumer came to: the number of messages written, unless closing failed. -/
  result : Option (Except ε Nat) := none

/-- Something that can happen to the consumer and its bus. -/
inductive Act where
  /-- Somebody else uses the bus. -/
  | other (t : Exchange.Turn)
  /-- The clock moves on to an instant. -/
  | pass (t : Instant)
  /-- The consumer starts a receive. -/
  | ask
  /-- The receive finds a message. -/
  | receive
  /-- The consumer writes the message that it has received. -/
  | write
  /-- The consumer sees a tick, drops its receive and flushes what is written. -/
  | tick
  /-- The receive finds that the messages are over, and the consumer closes the sink. -/
  | finish
deriving DecidableEq, Repr

/-- The consumer does it. -/
def Act.isOwn : Act → Bool
  | .other _ => false
  | .pass _ => false
  | _ => true

namespace Loop

variable {σ ε : Type}

/-- The name of the consumer's receives. -/
def self : String := "consumer"

/-- Others can do it: only the consumer has the receiving handle. -/
def isForeign : Exchange.Turn → Bool
  | .direct (.receive _) => false
  | .direct .tryReceive => false
  | .direct .dropStream => false
  | .direct (.abort id) => id ≠ self
  | .receive => false
  | _ => true

/-- The consumer at a new bus, before its first round. -/
def start (bus : Bus String) (ticker : Ticker) (sink : σ) : Loop σ ε where
  exchange := Exchange.ofBus bus
  state := { ticker, sink }

/-- A receive of the consumer is under way. -/
def asking (c : Loop σ ε) : Bool := c.exchange.receives.contains self

/-- The consumer waits for a message or a tick. -/
def waits (c : Loop σ ε) : Bool := c.hand.isNone && c.result.isNone

/-- A tick is there, and something is written that it makes the consumer flush. -/
def tickDue (c : Loop σ ε) : Bool := c.state.tickDue

/-- Drops the receive that is under way. -/
def dropReceive (c : Loop σ ε) : Loop σ ε :=
  let receives := c.exchange.receives.filter fun id => id ≠ self
  { c with exchange := { c.exchange with receives } }

/-- The consumer does something to the sink. -/
def after (c : Loop σ ε) (s : State σ × (Instant × Event ε)) : Loop σ ε :=
  { c with state := s.1, events := c.events ++ [s.2] }

/-- The consumer closes the sink and lets go of its receiving handle. -/
def close (sink : RecordSink σ ε) (c : Loop σ ε) : Loop σ ε :=
  let last := closeStep sink c.state c.state.now
  { c with
    exchange := (c.exchange.act .dropStream).1
    state := last.final
    events := c.events ++ last.events
    result := some last.result }

/-- What comes of an act, if the act is possible. -/
def act? (sink : RecordSink σ ε) (c : Loop σ ε) : Act → Option (Loop σ ε)
  | .other t =>
    if isForeign t then
      (c.exchange.turn? t).map fun (exchange, done) =>
        { c with exchange, arrived := c.arrived ++ t.queued done }
    else none
  | .pass t => if c.state.now ≤ t then some { c with state := { c.state with now := t } } else none
  | .ask =>
    if c.waits && !c.asking then
      some { c with exchange := (c.exchange.act (.receive self)).1 }
    else none
  | .receive =>
    if c.waits then
      match c.exchange.turn? .receive with
      | some (exchange, [(_, .received m)]) => some { c with exchange, hand := some m }
      | _ => none
    else none
  | .write =>
    c.hand.map fun m => { c with hand := none }.after (writeStep sink c.state c.state.now m)
  | .tick =>
    if c.waits && c.tickDue then some (c.dropReceive.after (flushStep sink c.state)) else none
  | .finish =>
    if c.waits then
      match c.exchange.turn? .receive with
      | some (exchange, [(_, .ended)]) => some ({ c with exchange }.close sink)
      | _ => none
    else none

/-- What comes of acts in order, if all of them are possible. -/
def run? (sink : RecordSink σ ε) (c : Loop σ ε) : List Act → Option (Loop σ ε)
  | [] => some c
  | a :: rest => (c.act? sink a).bind fun c => c.run? sink rest

/-- What no act breaks holds after a run. -/
theorem preserved_of_run? {sink : RecordSink σ ε} {P : Loop σ ε → Prop}
    (keeps : ∀ {c c' : Loop σ ε} {a : Act}, P c → c.act? sink a = some c' → P c')
    {c c' : Loop σ ε} {acts : List Act} (h : P c) (ran : c.run? sink acts = some c') : P c' := by
  induction acts generalizing c with
  | nil =>
    cases ran
    exact h
  | cons a acts ih =>
    obtain ⟨next, ha, ran⟩ := Option.bind_eq_some_iff.1 ran
    exact ih (keeps h ha) ran

end Loop

end Drain

end FeedCapture
