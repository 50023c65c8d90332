import FeedCapture.Fleet.Run

/-!
# What passes from peers to the consumer

The account of a run: what each worker took off its connections, what became of it, what went onto
the bus and what was received.  All of it is read off the history of a fleet.

## Main definitions

* `Transport.bytesBy` — what a peer has sent by an instant
* `Passage` — what happened on one connection
* `Fleet.passages`, `Fleet.delivered` — the connections of a worker, and the messages on the bus
* `Fleet.received` — the messages that were received in a run
-/

namespace FeedCapture

open Transport

/-- The bytes that a peer has sent by an instant.  Its stream is over when it ends or fails, and
also when it sends nothing. -/
def Transport.bytesBy (t : Instant) : List (Instant × Peer) → Bytes
  | [] => []
  | (due, act) :: rest =>
    if due ≤ t then
      match act with
      | .sends data => if data.isEmpty then [] else data ++ bytesBy t rest
      | _ => []
    else []

/-- The worker stopped reading because of what came from the peer, or because nothing came. -/
def ReadExit.byPeer : ReadExit → Bool
  | .idle _ => true
  | .eof => true
  | .failed _ => true
  | .closed => false
  | .busClosed => false

/-- What happened on one connection of a worker. -/
structure Passage where
  opened : Instant
  peer : List (Duration × Peer)
  /-- What was taken off the connection, read by read. -/
  reads : List Bytes := []
  /-- The messages that are on the bus. -/
  queued : List Message := []
  /-- The messages that did not get onto the bus. -/
  undelivered : List (Message × Delivery) := []
  /-- When and why the worker stopped reading. -/
  ending : Option (Instant × ReadExit) := none
deriving DecidableEq, Repr

namespace Passage

/-- What the peer has sent by an instant. -/
def sentBy (p : Passage) (t : Instant) : Bytes := bytesBy t (Connection.schedule p.opened p.peer)

/-- All that was put on the bus. -/
def queuedBytes (p : Passage) : Bytes := p.queued.flatMap (·.data)

/-- Takes in what the worker does. -/
def note (t : Instant) (p : Passage) : Worker.Event → Passage
  | .read (.data data) => { p with reads := p.reads ++ [data] }
  | .delivered m => { p with queued := p.queued ++ [m] }
  | .undelivered m outcome => { p with undelivered := p.undelivered ++ [(m, outcome)] }
  | .exited reason => { p with ending := some (t, reason) }
  | _ => p

/-- Takes in what the worker does, where the latest connection stands first. -/
def record (t : Instant) (e : Worker.Event) (ps : List Passage) : List Passage :=
  match e with
  | .dialEnded (.connected peer _) => { opened := t, peer } :: ps
  | e => ps.modifyHead fun p => p.note t e

/-- The connections in what a worker did; both have the latest first. -/
def ofLog (log : List (Instant × Worker.Event)) : List Passage :=
  log.foldr (fun e ps => record e.1 e.2 ps) []

end Passage

/-- The message that waits for room on the bus. -/
def Worker.Phase.inHand : Worker.Phase → Option Message
  | .delivering _ m => some m
  | _ => none

/-- The message that an event puts on the bus. -/
def Worker.Event.message? : Worker.Event → Option Message
  | .delivered m => some m
  | _ => none

@[simp] theorem Worker.Event.message?_delivered (m : Message) :
    (Event.delivered m).message? = some m := rfl

@[simp] theorem Worker.Event.message?_read (result : Connection.ReadResult) :
    (Event.read result).message? = none := rfl

@[simp] theorem Worker.Event.message?_undelivered (m : Message) (outcome : Delivery) :
    (Event.undelivered m outcome).message? = none := rfl

@[simp] theorem Worker.Event.message?_dialEnded (outcome : Outcome) :
    (Event.dialEnded outcome).message? = none := rfl

/-- The messages that a step puts on the bus. -/
def Worker.Step.messages (s : Worker.Step) : List Message := s.events.filterMap Event.message?

namespace Fleet

/-- What the worker in a slot did, the latest first. -/
def log (f : Fleet) (slot : Nat) : List (Instant × Worker.Event) :=
  f.past.filterMap fun (t, s, e) => if s = slot then some (t, e) else none

/-- The connections of the worker in a slot, the latest first. -/
def passages (f : Fleet) (slot : Nat) : List Passage := Passage.ofLog (f.log slot)

/-- The messages that were put on the bus, with the slots of their workers, in order. -/
def delivered (f : Fleet) : List (Nat × Message) :=
  f.history.filterMap fun (_, slot, e) => e.message?.map fun m => (slot, m)

/-- The messages that the worker in a slot put on the bus, in order. -/
def deliveredBy (f : Fleet) (slot : Nat) : List Message :=
  (f.delivered.filter fun d => d.1 = slot).map Prod.snd

/-- The message that the worker in a slot has taken off its connection and not handed over yet. -/
def inHand (f : Fleet) (slot : Nat) : Option Message :=
  f.workers[slot]?.bind fun w => w.phase.inHand

/-- The message that is received with an act, if any. -/
def takes (f : Fleet) : Act → List Message
  | .receive => (f.receive?.map Prod.fst).toList
  | _ => []

/-- The messages that are received with some acts, in order. -/
def received (f : Fleet) : List Act → List Message
  | [] => []
  | a :: rest =>
    f.takes a ++
      match f.act? a with
      | some g => g.received rest
      | none => []

end Fleet

end FeedCapture
