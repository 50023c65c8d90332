import FeedCapture.Fleet.Run
import FeedCapture.Live
import FeedCapture.Program

/-!
# Capturing into day files

A capture and the consumer that writes its messages to day files, as they go on side by side.  The
supervisor starts its workers at once and is told to stop when the shutdown signal comes; the
consumer receives messages one by one and writes them, flushes what it has written when its ticker
is due, and closes the day files when the messages are over; the files of past days are compressed
in the background.  The acts may come in any order, so the runs are all ways in which they can
interleave.

## Main definitions

* `Pipeline`, with `Pipeline.start?`
* `Pipeline.Act`, `Pipeline.act?` — what can happen, and what comes of it
* `Pipeline.run?` — what comes of several acts in order
* `Pipeline.written` — the messages that the consumer has written
-/

namespace FeedCapture

/-- A capture whose messages are written to day files. -/
structure Pipeline where
  /-- The supervisor, and the call of stop once the shutdown signal has come. -/
  live : Live
  /-- The message that is received and not written yet. -/
  hand : Option Message := none
  /-- The consumer with the day files. -/
  drain : Drain.State DayFiles
  /-- What the consumer did to the day files, the latest first. -/
  past : List (Instant × Drain.Event DayFiles.Failure) := []
  /-- What the consumer came to: the number of messages that it has written. -/
  result : Option (Except DayFiles.Failure Nat) := none

namespace Pipeline

/-- The workers. -/
def fleet (p : Pipeline) : Fleet := p.live.fleet

/-- The time. -/
def now (p : Pipeline) : Instant := p.fleet.hub.now

/-- The day files. -/
def files (p : Pipeline) : DayFiles := p.drain.sink

/-- The messages that the consumer has written, in order. -/
def written (p : Pipeline) : List Message := p.past.reverse.filterMap fun e => e.2.message?

/-- A capture with the given settings, just started: the workers are about to dial, and the consumer
waits.  There is none when the supervisor refuses the policy, or when the ticker has no period. -/
def start? (s : Settings) (network : Network) (epoch : Int) (tree : FileTree) : Option Pipeline :=
  match Supervisor.create s.capture.sources s.capture.policy network true,
    Ticker.every (Duration.millis s.sink.flushInterval) with
  | .ok supervisor, .ok ticker =>
    let fleet := { supervisor.fleet with hub := { supervisor.fleet.hub with epoch } }
    some
      { live := { supervisor := { supervisor with fleet }.start }
        drain := { ticker, sink := Program.dayFiles tree s.sink } }
  | _, _ => none

/-- Something that can happen to a capture. -/
inductive Act where
  /-- The worker in a slot takes a step. -/
  | step (slot : Nat)
  /-- The clock moves on to an instant. -/
  | pass (t : Instant)
  /-- The shutdown signal comes, and stop is called. -/
  | shutDown
  /-- The call of stop goes on until it waits or is over. -/
  | poll
  /-- The consumer receives the oldest message. -/
  | receive
  /-- The consumer writes the message that it has received. -/
  | write
  /-- The consumer sees a tick and flushes what is written. -/
  | tick
  /-- The file of a path, which was handed over, is compressed. -/
  | compress (path : String)
  /-- The consumer sees that the messages are over, and closes the day files. -/
  | finish
deriving DecidableEq, Repr

/-- The consumer waits for a message or a tick. -/
def waits (p : Pipeline) : Bool := p.hand.isNone && p.result.isNone

/-- What comes of an act of the workers or the clock. -/
def actOfFleet? (p : Pipeline) (a : Fleet.Act) : Option Pipeline :=
  (p.fleet.act? a).map fun fleet => { p with live := p.live.withFleet fleet }

/-- The consumer does something to the day files. -/
def after (p : Pipeline) (s : Drain.State DayFiles × (Instant × Drain.Event DayFiles.Failure)) :
    Pipeline :=
  { p with drain := s.1, past := s.2 :: p.past }

/-- What comes of an act, if the act is possible. -/
def act? (p : Pipeline) : Act → Option Pipeline
  | .step slot => p.actOfFleet? (.step slot)
  | .pass t => p.actOfFleet? (.lag t)
  | .shutDown => some { p with live := p.live.shutDown }
  | .poll => some { p with live := p.live.poll }
  | .receive =>
    if p.waits then
      p.fleet.receive?.map fun (m, fleet) =>
        { p with live := p.live.withFleet fleet, hand := some m }
    else none
  | .write =>
    p.hand.map fun m =>
      { p with hand := none }.after (Drain.writeStep DayFiles.sink p.drain p.now m)
  | .tick =>
    let drain := { p.drain with now := p.now }
    if p.waits && drain.tickDue then some (p.after (Drain.flushStep DayFiles.sink drain)) else none
  | .compress path =>
    if path ∈ p.files.compressing then
      some { p with drain := { p.drain with sink := p.files.compressFile path } }
    else none
  | .finish =>
    if p.waits && p.fleet.atEnd then
      let last := Drain.closeStep DayFiles.sink p.drain p.now
      some
        { p with
          drain := last.final
          past := last.events.reverse ++ p.past
          result := some last.result }
    else none

/-- What comes of acts in order, if all of them are possible. -/
def run? (p : Pipeline) : List Act → Option Pipeline
  | [] => some p
  | a :: rest => (p.act? a).bind fun p => p.run? rest

theorem run?_append (p : Pipeline) (xs ys : List Act) :
    p.run? (xs ++ ys) = (p.run? xs).bind fun p => p.run? ys := by
  induction xs generalizing p with
  | nil => rfl
  | cons a xs ih => simp only [List.cons_append, run?, Option.bind_assoc, ih]

end Pipeline

end FeedCapture
