import FeedCapture.Log
import FeedCapture.RecordSink

/-!
# Draining messages into a sink

The consumer of the bus writes every message to a sink, and a ticker makes it flush what was
written. The ticker is only looked at while something written is not flushed.  When a message and a
tick are both there, either may come first.

## Main definitions

* `Ticker` — a periodic timer that does not catch up on ticks it has missed
* `Drain.run` — the events of a whole run, until the messages end and the sink is closed
* `Drain.Event.report?` — what a run reports
-/

namespace FeedCapture

/-- A periodic timer. -/
structure Ticker where
  period : Duration
  /-- When the next tick is due. -/
  due : Instant := 0
deriving DecidableEq, Repr

/-- Why there is no timer. -/
inductive Ticker.Refusal where
  /-- A timer without a period would tick without end at one instant. -/
  | zeroPeriod
deriving DecidableEq, Repr

/-- The text of a refusal. -/
def Ticker.Refusal.message : Ticker.Refusal → String
  | .zeroPeriod => "\x60period\x60 must be non-zero."

/-- The timer of a period, whose first tick is due at once. -/
def Ticker.every (period : Duration) : Except Ticker.Refusal Ticker :=
  if period = 0 then .error .zeroPeriod else .ok { period }

/-- How late a tick may be without being counted as missed. -/
def Ticker.tolerance : Duration := Duration.millis 5

/-- The timer after a tick that is seen at `now`: the next tick is one period after this one was
due, or one period from now when this one was missed. -/
def Ticker.advance (t : Ticker) (now : Instant) : Ticker :=
  { t with due := (if t.due + tolerance < now then now else t.due) + t.period }

namespace Drain

/-- The operation succeeded. -/
def succeeded {ε : Type} : Except ε Unit → Bool
  | .ok _ => true
  | .error _ => false

/-- What happens to the sink. -/
inductive Event (ε : Type) where
  | wrote (message : Message) (result : Except ε Unit)
  | flushed (result : Except ε Unit)
  | closed (result : Except ε Unit)

/-- The message that is written with an event, if any. -/
def Event.message? {ε : Type} : Event ε → Option Message
  | .wrote m _ => some m
  | _ => none

/-- The event is a failure. -/
def Event.failed {ε : Type} : Event ε → Bool
  | .wrote _ result => !succeeded result
  | .flushed result => !succeeded result
  | .closed result => !succeeded result

/-- The log entry of an event; only failures are reported, and that of closing is the result of the
run. -/
def Event.report? {ε : Type} (describe : ε → String) : Event ε → Option Log.Entry
  | .wrote m (.error e) =>
    some ⟨.error, "failed to persist record",
      [("source", .text m.source), ("error", .text (describe e))]⟩
  | .flushed (.error e) =>
    some ⟨.error, "failed to flush records", [("error", .text (describe e))]⟩
  | _ => none

/-- How far a run has come. -/
structure State (σ : Type) where
  now : Instant := 0
  ticker : Ticker
  /-- Something is written and not flushed. -/
  dirty : Bool := false
  /-- How many messages were written, in a word of 64 bits. -/
  written : UInt64 := 0
  sink : σ

/-- A tick is there, and something is written that it makes the consumer flush. -/
def State.tickDue {σ : Type} (s : State σ) : Bool := s.dirty && s.ticker.due ≤ s.now

/-- All that a run did. -/
structure Trace (σ ε : Type) where
  events : List (Instant × Event ε)
  final : State σ
  /-- The number of messages written, unless closing failed. -/
  result : Except ε Nat

variable {σ ε : Type}

/-- Puts an event before those of a trace. -/
def Trace.cons (event : Instant × Event ε) (t : Trace σ ε) : Trace σ ε :=
  { t with events := event :: t.events }

/-- Whether the ticker is served before what comes from the bus at `next`.  The choice decides when
both are there. -/
def tickFirst (s : State σ) (next : Instant) (choice : Bool) : Bool :=
  s.dirty && (max s.now s.ticker.due < max s.now next ||
    (max s.now s.ticker.due = max s.now next && choice))

/-- Flushes the sink at a tick. -/
def flushStep (sink : RecordSink σ ε) (s : State σ) : State σ × (Instant × Event ε) :=
  let now := max s.now s.ticker.due
  let (next, result) := sink.flush s.sink
  ({ s with now, ticker := s.ticker.advance now, dirty := false, sink := next },
    (now, .flushed result))

/-- Writes a message that comes from the bus at `arrival`. -/
def writeStep (sink : RecordSink σ ε) (s : State σ) (arrival : Instant) (m : Message) :
    State σ × (Instant × Event ε) :=
  let now := max s.now arrival + sink.writeTime s.sink
  let (next, result) := sink.write s.sink m.data m.timestamp
  let wrote := succeeded result
  ({ s with
      now
      dirty := s.dirty || wrote
      written := if wrote then s.written + 1 else s.written
      sink := next },
    (now, .wrote m result))

/-- Closes the sink when the bus has ended. -/
def closeStep (sink : RecordSink σ ε) (s : State σ) (ended : Instant) : Trace σ ε :=
  let now := max s.now ended
  let (next, result) := sink.close s.sink
  { events := [(now, .closed result)]
    final := { s with now, sink := next }
    result := result.map fun _ => s.written.toNat }

/-- Runs from a state on: messages come from the bus in order, each not before its time, and the bus
ends.  The choices decide in turn what comes first when a message and a tick are both there. -/
def runFrom (sink : RecordSink σ ε) (s : State σ) (choices : Nat → Bool) (ended : Instant) :
    List (Instant × Message) → Trace σ ε
  | [] =>
    if tickFirst s ended (choices 0) then
      let (s, event) := flushStep sink s
      (closeStep sink s ended).cons event
    else closeStep sink s ended
  | (arrival, m) :: rest =>
    if tickFirst s arrival (choices 0) then
      let (s, flushed) := flushStep sink s
      let (s, wrote) := writeStep sink s arrival m
      ((runFrom sink s (fun n => choices (n + 1)) ended rest).cons wrote).cons flushed
    else
      let (s, wrote) := writeStep sink s arrival m
      (runFrom sink s (fun n => choices (n + 1)) ended rest).cons wrote

/-- A whole run from the start of the clock. -/
def run (sink : RecordSink σ ε) (start : σ) (ticker : Ticker) (choices : Nat → Bool)
    (messages : List (Instant × Message)) (ended : Instant) : Trace σ ε :=
  runFrom sink { ticker, sink := start } choices ended messages

end Drain

end FeedCapture
