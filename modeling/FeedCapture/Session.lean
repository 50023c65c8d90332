import FeedCapture.Metrics.Exposition
import FeedCapture.Supervisor
import FeedCapture.Worker.Report

/-!
# Sessions in virtual time

A session drives a capture over a planned network.  Work takes no time: the clock stands still while
anybody can go on, and then jumps to the next instant at which a worker goes on by itself or the
next control step is taken.

## Main definitions

* `Capture` — a supervisor, or workers without one
* `Session`, with `Session.settle` and `Session.advance`
* `Session.Step`, `Session.Reply`, `Session.step`, `Session.run`
-/

namespace FeedCapture

/-- What is being driven. -/
inductive Capture where
  | supervised (s : Supervisor)
  /-- Workers that share a fleet, and whether they were started. -/
  | crew (sources : List String) (fleet : Fleet) (started : Bool)
deriving DecidableEq, Repr

namespace Capture

/-- The workers. -/
def fleet : Capture → Fleet
  | .supervised s => s.fleet
  | .crew _ f _ => f

/-- The same capture with its workers in another state. -/
def withFleet (c : Capture) (f : Fleet) : Capture :=
  match c with
  | .supervised s => .supervised { s with fleet := f }
  | .crew sources _ started => .crew sources f started

/-- Workers for some sources, without a supervisor. -/
def crewOf (sources : List String) (policy : Policy) (network : Network) (counting : Bool) :
    Except Bus.InvalidCapacity Capture :=
  (Bus.withCapacity Nat policy.busCapacity).map fun bus =>
    .crew sources (Fleet.create policy network bus counting true) false

end Capture

/-- Who receives the messages. -/
inductive Session.Consumer where
  /-- Only control steps receive messages. -/
  | manual
  /-- Every message is received at once. -/
  | prompt
  /-- There was a prompt consumer, which has seen the end or is gone. -/
  | gone
deriving DecidableEq, Repr

/-- What the prompt consumer received: a message, or the end. -/
abbrev Session.Receipt := Instant × Option Message

/-- A capture under way. -/
structure Session where
  capture : Capture
  consumer : Session.Consumer
  /-- What the prompt consumer received, the latest first. -/
  receipts : List Session.Receipt := []
deriving DecidableEq, Repr

namespace Session

/-- The workers. -/
def fleet (s : Session) : Fleet := s.capture.fleet

/-- The time. -/
def now (s : Session) : Instant := s.fleet.hub.now

/-- The same session with its workers in another state. -/
def withFleet (s : Session) (f : Fleet) : Session := { s with capture := s.capture.withFleet f }

/-- What the prompt consumer received, the earliest first. -/
def received (s : Session) : List Receipt := s.receipts.reverse

/-! ## Letting everybody go on -/

/-- The prompt consumer has something to receive. -/
def canServe (s : Session) : Bool :=
  s.consumer = .prompt && (!s.fleet.hub.bus.queue.isEmpty || s.fleet.atEnd)

/-- Lets the prompt consumer receive one message or the end. -/
def serve (s : Session) : Session :=
  match s.fleet.receive? with
  | some (m, f) => { s.withFleet f with receipts := (s.now, some m) :: s.receipts }
  | none => { s with receipts := (s.now, none) :: s.receipts, consumer := .gone }

/-- Lets workers and consumer go on in turn, for at most so many turns. -/
def turns (effort : Nat) : Nat → Session → Session
  | 0, s => s
  | fuel + 1, s =>
    let s := s.withFleet (s.fleet.settleWithin effort)
    if s.canServe then turns effort fuel s.serve else s

/-- Lets workers and consumer go on until all of them wait.  Receiving leaves the workers no more to
do than they had before. -/
def settle (s : Session) : Session :=
  let effort := s.fleet.effort
  turns effort (effort + s.fleet.hub.bus.queue.length + 2) s

/-- Moves the clock on. -/
def moveTo (s : Session) (t : Instant) : Session := s.withFleet (s.fleet.moveTo t)

/-- Lets time pass up to the target, for at most so many instants at which a worker goes on. -/
def pass (target : Instant) : Nat → Session → Session
  | 0, s => s
  | fuel + 1, s =>
    let s := s.settle
    match s.fleet.wakeAt with
    | some t =>
      if s.now < t ∧ t ≤ target then pass target fuel (s.moveTo t)
      else s.moveTo (max s.now target)
    | none => s.moveTo (max s.now target)

/-- Lets time pass up to the target; no time passes when the target is over. -/
def advance (s : Session) (target : Instant) : Session := pass target (target - s.now + 1) s

/-! ## Control steps -/

/-- One control step. -/
inductive Step where
  | start
  | stop
  /-- Lets a call of stop run once and gives it up. -/
  | stopAbandoned
  | closeAll
  | closeBus
  | dropReceivers
  | active
  | finished
  | isStopped
  | sources
  | gauge
  | metrics
  | messagesFor (source : String)
  /-- Receives messages without waiting, up to a number. -/
  | tryReceive (count : Nat)
  /-- Waits for a message. -/
  | receive (within : Duration)
  | wait
deriving DecidableEq, Repr

/-- The answer to a control step. -/
inductive Reply where
  | ok
  | alreadyStarted
  | completed
  | abandoned
  | noBus
  | flag (b : Bool)
  | flags (bs : List Bool)
  | count (n : Nat)
  | level (n : Int)
  | addresses (addrs : List String)
  | text (s : String)
  | messages (ms : List Message)
  | message (m : Message)
  | ended
  | timedOut
deriving DecidableEq, Repr

/-- Receives up to `count` messages while nobody else goes on. -/
def takeMany (f : Fleet) : Nat → Fleet × List Message
  | 0 => (f, [])
  | count + 1 =>
    match f.receive? with
    | none => (f, [])
    | some (m, f) =>
      let (f, ms) := takeMany f count
      (f, m :: ms)

/-- Waits for a message until the deadline, for at most so many instants. -/
def await (deadline : Instant) : Nat → Session → Session × Reply
  | 0, s => (s, .timedOut)
  | fuel + 1, s =>
    let s := s.settle
    match s.fleet.receive? with
    | some (m, f) => (s.withFleet f, .message m)
    | none =>
      if s.fleet.atEnd then (s, .ended)
      else
        match s.fleet.wakeAt with
        | some t =>
          if s.now < t ∧ t ≤ deadline then await deadline fuel (s.moveTo t)
          else (s.moveTo (max s.now deadline), .timedOut)
        | none => (s.moveTo (max s.now deadline), .timedOut)

/-- Starts the workers. -/
def start (s : Session) : Session × Reply :=
  match s.capture with
  | .supervised c => ({ s with capture := .supervised c.start }, .ok)
  | .crew sources f started =>
    if started then (s, .alreadyStarted)
    else ({ s with capture := .crew sources (f.spawn sources) true }, .ok)

/-- Stops a supervisor, and waits until it has stopped; without one, cancels the stop token. -/
def stop (s : Session) : Session :=
  match s.capture with
  | .supervised c =>
    let (c, call) := c.pollStop .fresh
    let s := { s with capture := .supervised c }.settle
    match s.capture with
    | .supervised c => { s with capture := .supervised (c.pollStop call).1 }
    | .crew _ _ _ => s
  | .crew sources f started => { s with capture := .crew sources f.stop started }

/-- Lets a call of stop run once and gives it up. -/
def stopAbandoned (s : Session) : Session × Reply :=
  match s.capture with
  | .supervised c =>
    let (c, call) := c.pollStop .fresh
    ({ s with capture := .supervised (c.dropStop call) },
      if call = .finished then .completed else .abandoned)
  | .crew _ _ _ => (s, .ok)

/-- Does a control step at once. -/
def act (s : Session) : Step → Session × Reply
  | .start => s.start
  | .stop => (s.stop, .ok)
  | .stopAbandoned => s.stopAbandoned
  | .closeAll =>
    let (f, n) := s.fleet.closeAll
    (s.withFleet f, .count n)
  | .closeBus =>
    if !s.fleet.hub.bus.receiving then (s, .noBus)
    else
      let (f, first) := s.fleet.closeBus
      (s.withFleet f, .flag first)
  | .dropReceivers =>
    ({ s.withFleet s.fleet.dropReceivers with
        consumer := if s.consumer = .prompt then .gone else s.consumer }, .ok)
  | .active => (s, .addresses s.fleet.hub.registry.addresses)
  | .finished => (s, .flags (s.fleet.workers.map Worker.ended))
  | .isStopped =>
    (s, .flag (match s.capture with
      | .supervised c => c.stopped
      | .crew _ f _ => f.hub.stopping))
  | .sources =>
    (s, .addresses (match s.capture with
      | .supervised c => c.sources
      | .crew sources _ _ => sources))
  | .gauge => (s, .level s.fleet.hub.metrics.activeConnections)
  | .metrics => (s, .text s.fleet.hub.metrics.exposition)
  | .messagesFor source =>
    let (metrics, n) := s.fleet.hub.metrics.messagesFor source
    (s.withFleet { s.fleet with hub := { s.fleet.hub with metrics } }, .count n)
  | .tryReceive count =>
    let (f, ms) := takeMany s.fleet count
    (s.withFleet f, .messages ms)
  | .receive within => await (s.now + within) (within + 1) s
  | .wait => (s, .ok)

/-- Takes a control step at its time, or now if that is over, and lets everybody go on.  The answer
comes with the time at which the step ended. -/
def step (s : Session) (time : Instant) (what : Step) : Session × Instant × Reply :=
  let (s, reply) := (s.advance time).act what
  (s.settle, s.now, reply)

/-- Takes control steps in order. -/
def run (s : Session) : List (Instant × Step) → Session × List (Instant × Reply)
  | [] => (s, [])
  | (time, what) :: rest =>
    let (s, ended, reply) := s.step time what
    let (s, replies) := run s rest
    (s, (ended, reply) :: replies)

end Session

end FeedCapture
