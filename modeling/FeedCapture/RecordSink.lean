import FeedCapture.DayFiles
import FeedCapture.Duration

/-!
# Record sinks

Whatever takes records one by one: a record can be written, what was written can be flushed, and in
the end the sink is closed.  Each of these can fail, and the sink goes on as the next state.

## Main definitions

* `RecordSink` — the three operations on states of the sink
* `RecordSink.told` — a sink whose next call comes to what is told
* `DayFiles.sink` — day files as a sink
* `ScriptedSink` — a sink whose failures are known beforehand
-/

namespace FeedCapture

/-- The operations of a sink with states `σ` and failures `ε`. -/
structure RecordSink (σ ε : Type) where
  /-- Writes bytes that were received at the given time, in milliseconds since the start of 1970. -/
  write : σ → Bytes → Int → σ × Except ε Unit
  /-- How long the next write takes. -/
  writeTime : σ → Duration
  /-- Hands over what was written. -/
  flush : σ → σ × Except ε Unit
  /-- Hands over what was written and ends. -/
  close : σ → σ × Except ε Unit

/-- A sink whose next call comes to what is told. -/
def RecordSink.told {σ ε : Type} (next : σ) (result : Except ε Unit) : RecordSink σ ε where
  write _ _ _ := (next, result)
  writeTime _ := 0
  flush _ := (next, result)
  close _ := (next, result)

/-- Day files as a sink.  Writing takes no time of its own and does not wait for what happens in the
background. -/
def DayFiles.sink : RecordSink DayFiles DayFiles.Failure where
  write s data received :=
    let (s, result, _) := s.writeDespite none data received
    (s, result)
  writeTime _ := 0
  flush s := (s.flush, .ok ())
  close s := (s.close, .ok ())

/-- A sink that fails at given calls. -/
structure ScriptedSink where
  /-- The numbers of the writes that fail, from zero. -/
  failingWrites : List Nat := []
  /-- The numbers of the flushes that fail, from zero. -/
  failingFlushes : List Nat := []
  failingClose : Bool := false
  /-- How long the next writes take; those after them take no time. -/
  writeTimes : List Duration := []
  /-- How many writes there were. -/
  writes : Nat := 0
  /-- How many flushes there were. -/
  flushes : Nat := 0
deriving DecidableEq, Repr

namespace ScriptedSink

/-- The only failure. -/
def failure : String := "I/O error on mock: scripted failure"

/-- Success, or the failure. -/
def outcome (fails : Bool) : Except String Unit := if fails then .error failure else .ok ()

/-- The operations of a scripted sink. -/
def sink : RecordSink ScriptedSink String where
  write s _ _ :=
    ({ s with writes := s.writes + 1, writeTimes := s.writeTimes.drop 1 },
      outcome (s.failingWrites.contains s.writes))
  writeTime s := s.writeTimes.headD 0
  flush s := ({ s with flushes := s.flushes + 1 }, outcome (s.failingFlushes.contains s.flushes))
  close s := (s, outcome s.failingClose)

end ScriptedSink

end FeedCapture
