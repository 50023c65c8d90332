import FeedCapture.Bus
import FeedCapture.Cancellation
import FeedCapture.Log

/-!
# Deliveries and receives around one bus

A bus in use: senders that were handed out, deliveries and receives that wait, and the tokens that
stop deliveries.  One step is taken at a time, and after each of them everything that can go on does
so, until every task waits.  Receives stand in line for the one receiver; a receive that waits keeps
the receiver alive, and a delivery that waits keeps a sender alive.

## Main definitions

* `Exchange` — the bus, its handles and the tasks that wait
* `Exchange.Step`, `Exchange.Answer` — what can be asked of it, and what comes of it
* `Exchange.settle` — lets every task run until it waits
* `Exchange.step`, `Exchange.run`
-/

namespace FeedCapture

/-- A delivery that waits for room: the message it holds and the token that stops it. -/
structure Exchange.Pending where
  id : String
  message : Message
  token : Token
deriving DecidableEq, Repr

/-- A bus, the handles on it and the tasks that wait at it. -/
structure Exchange where
  bus : Bus String
  /-- The bus itself is still held. -/
  hasBus : Bool := true
  /-- The receiving handle is still held. -/
  hasStream : Bool := true
  /-- The names of the senders that are held. -/
  senders : List String := []
  /-- The deliveries that wait for room. -/
  deliveries : List Exchange.Pending := []
  /-- The receives that wait, first in line first. -/
  receives : List String := []
  tokens : NamedTokens := {}
deriving DecidableEq, Repr

namespace Exchange

/-- One thing to do with the bus. -/
inductive Step where
  /-- Asks the bus for a sender. -/
  | sender (id : String)
  | cloneSender (id source : String)
  | dropSender (id : String)
  /-- Starts a delivery with a sender of its own. -/
  | deliver (id sender token : String) (message : Message)
  /-- Starts a receive. -/
  | receive (id : String)
  /-- Receives without waiting. -/
  | tryReceive
  /-- Drops a task that waits. -/
  | abort (id : String)
  | cancel (token : String)
  | child (id parent : String)
  | close
  | isClosed
  | capacity
  | dropBus
  | dropStream
deriving DecidableEq, Repr

/-- How a task ends. -/
inductive Outcome where
  | delivery (d : Delivery)
  | received (m : Message)
  /-- The stream is over. -/
  | ended
deriving DecidableEq, Repr

/-- The direct answer to a step. -/
inductive Reply where
  | ok
  | flag (b : Bool)
  | noBus
  | noSender
  | noStream
  /-- A closed bus gives no sender. -/
  | closed
  /-- What a receive without waiting found. -/
  | got (m : Option Message)
  | capacity (n : Option Nat)
deriving DecidableEq, Repr

/-- All that comes of a step: the direct answer, the tasks that ended, and the log. -/
structure Answer where
  reply : Reply
  done : List (String × Outcome)
  logs : List Log.Entry
deriving DecidableEq, Repr

/-- A bus in its first state, with one receiving handle. -/
def ofBus (bus : Bus String) : Exchange := { bus }

/-- Somebody can still send: the bus itself, a sender that is held, or a delivery that waits. -/
def hasSender (e : Exchange) : Bool :=
  e.bus.ownSender || !e.senders.isEmpty || !e.deliveries.isEmpty

/-- Somebody can still receive. -/
def hasReceiver (e : Exchange) : Bool := e.hasBus || e.hasStream || !e.receives.isEmpty

/-- The names of the tasks that wait, in alphabetical order. -/
def waiting (e : Exchange) : List String :=
  (e.deliveries.map (·.id) ++ e.receives).mergeSort (fun a b => a ≤ b)

/-! ## Letting the tasks run -/

/-- Ends the deliveries whose token is cancelled. -/
def stopDeliveries (e : Exchange) : Exchange × List (String × Outcome) :=
  let stopped := e.deliveries.filter fun d => e.tokens.tree.isCancelled d.token
  ({ e with
      bus := stopped.foldl (fun bus d => bus.leave d.id) e.bus
      deliveries := e.deliveries.filter fun d => !e.tokens.tree.isCancelled d.token },
    stopped.map fun d => (d.id, .delivery .stopped))

/-- Lets every delivery look at the bus, in the order of `pending`. -/
def claimAll (e : Exchange) : List Pending → Exchange × List (String × Outcome)
  | [] => (e, [])
  | d :: rest =>
    match e.bus.claim d.id d.message with
    | (bus, some outcome) =>
      let (e, done) := claimAll { e with bus, deliveries := e.deliveries.erase d } rest
      (e, (d.id, .delivery outcome) :: done)
    | (_, none) => claimAll e rest

/-- Serves the receives in line while messages are queued.  A place that becomes free is used at
once by the delivery that it belongs to. -/
def serve (e : Exchange) : List String → Exchange × List (String × Outcome)
  | [] => (e, [])
  | id :: rest =>
    match e.bus.take? with
    | none => (e, [])
    | some (m, bus) =>
      let e := { e with bus, receives := rest }
      let (e, claimed) := e.claimAll e.deliveries
      let (e, done) := serve e rest
      (e, (id, .received m) :: claimed ++ done)

/-- Ends the receives in line when nothing is queued and nobody can send any more. -/
def endReceives (e : Exchange) : Exchange × List (String × Outcome) :=
  if e.bus.queue.isEmpty && !e.hasSender then
    ({ e with receives := [] }, e.receives.map fun id => (id, .ended))
  else (e, [])

/-- Lets go of the receiver when nobody holds it, and ends the deliveries that wait. -/
def closeDeliveries (e : Exchange) : Exchange × List (String × Outcome) :=
  if e.hasReceiver then (e, [])
  else
    let e := { e with bus := e.bus.dropReceiver }
    e.claimAll e.deliveries

/-- Lets every task run until it waits. -/
def settle (e : Exchange) : Exchange × List (String × Outcome) :=
  let (e, stopped) := e.stopDeliveries
  let (e, claimed) := e.claimAll e.deliveries
  let (e, served) := e.serve e.receives
  let (e, ended) := e.endReceives
  let (e, closed) := e.closeDeliveries
  (e, stopped ++ claimed ++ served ++ ended ++ closed)

/-! ## Steps -/

/-- The entry that a delivery writes when it finds the bus full. -/
def fullEntry (source : String) : Log.Entry :=
  ⟨.trace, "message bus full, waiting for capacity", [("source", .text source)]⟩

/-- The entry that closing the bus writes. -/
def closedEntry : Log.Entry := ⟨.trace, "message bus closed", []⟩

/-- Puts a sender under a name; an earlier one of that name is given up. -/
def addSender (e : Exchange) (id : String) : Exchange :=
  { e with senders := id :: e.senders.filter (fun s => s ≠ id) }

/-- Starts a delivery: the message is queued at once, or the delivery is over because nobody
receives, or it joins the line. -/
def startDelivery (e : Exchange) (id token : String) (m : Message) :
    Exchange × List (String × Outcome) × List Log.Entry :=
  let (named, token) := e.tokens.resolve token
  let e := { e with tokens := named }
  match e.bus.offer m with
  | (bus, .queued) => ({ e with bus }, [(id, .delivery .delivered)], [])
  | (bus, .closed) => ({ e with bus }, [(id, .delivery .closed)], [])
  | (bus, .full) =>
    ({ e with bus := bus.park id, deliveries := e.deliveries ++ [⟨id, m, token⟩] }, [],
      [fullEntry m.source])

/-- Does the direct part of a step: the answer, the tasks that end with it, and the log. -/
def act (e : Exchange) : Step → Exchange × Answer
  | .sender id =>
    if !e.hasBus then (e, ⟨.noBus, [], []⟩)
    else if e.bus.ownSender then (e.addSender id, ⟨.ok, [], []⟩)
    else (e, ⟨.closed, [], []⟩)
  | .cloneSender id source =>
    if source ∈ e.senders then (e.addSender id, ⟨.ok, [], []⟩) else (e, ⟨.noSender, [], []⟩)
  | .dropSender id =>
    ({ e with senders := e.senders.filter (fun s => s ≠ id) }, ⟨.flag (id ∈ e.senders), [], []⟩)
  | .deliver id sender token m =>
    if sender ∈ e.senders then
      let (e, done, logs) := e.startDelivery id token m
      (e, ⟨.ok, done, logs⟩)
    else (e, ⟨.noSender, [], []⟩)
  | .receive id =>
    if e.hasStream then ({ e with receives := e.receives ++ [id] }, ⟨.ok, [], []⟩)
    else (e, ⟨.noStream, [], []⟩)
  | .tryReceive =>
    if !e.hasStream then (e, ⟨.noStream, [], []⟩)
    else if !e.receives.isEmpty then (e, ⟨.got none, [], []⟩)
    else
      match e.bus.take? with
      | some (m, bus) => ({ e with bus }, ⟨.got (some m), [], []⟩)
      | none => (e, ⟨.got none, [], []⟩)
  | .abort id =>
    if e.deliveries.any (fun d => d.id = id) then
      ({ e with
          bus := e.bus.leave id
          deliveries := e.deliveries.filter fun d => d.id ≠ id }, ⟨.flag true, [], []⟩)
    else if id ∈ e.receives then
      ({ e with receives := e.receives.filter fun r => r ≠ id }, ⟨.flag true, [], []⟩)
    else (e, ⟨.flag false, [], []⟩)
  | .cancel token => ({ e with tokens := e.tokens.cancel token }, ⟨.ok, [], []⟩)
  | .child id parent => ({ e with tokens := e.tokens.child id parent }, ⟨.ok, [], []⟩)
  | .close =>
    if !e.hasBus then (e, ⟨.noBus, [], []⟩)
    else
      let (bus, first) := e.bus.close
      ({ e with bus }, ⟨.flag first, [], if first then [closedEntry] else []⟩)
  | .isClosed => (e, ⟨if e.hasBus then .flag !e.bus.ownSender else .noBus, [], []⟩)
  | .capacity => (e, ⟨.capacity (if e.hasBus then some e.bus.capacity else none), [], []⟩)
  | .dropBus =>
    ({ e with hasBus := false, bus := (e.bus.close).1 }, ⟨.flag e.hasBus, [], []⟩)
  | .dropStream => ({ e with hasStream := false }, ⟨.flag e.hasStream, [], []⟩)

/-- Takes one step, and lets every task run until it waits. -/
def step (e : Exchange) (s : Step) : Exchange × Answer :=
  let (e, answer) := e.act s
  let (e, done) := e.settle
  (e, { answer with done := answer.done ++ done })

/-- Takes the steps in order. -/
def run (e : Exchange) : List Step → Exchange × List Answer
  | [] => (e, [])
  | s :: rest =>
    let (e, answer) := e.step s
    let (e, answers) := run e rest
    (e, answer :: answers)

end Exchange

end FeedCapture
