import FeedCapture.Supervisor

/-!
# Captures as they happen

A capture over a network of which nothing is known beforehand.  Every dial waits until its outcome
is told, and what a peer does is told when it is there.  From then on the workers go on as they do
over a planned network.

## Main definitions

* `Fleet.leaveDialsOpen`, `Fleet.dialEnded`, `Fleet.peerActed` — what is told to the workers
* `Live`, with `Live.settle`, `Live.poll`, `Live.shutDown` and `Live.isOver`
-/

namespace FeedCapture

open Transport

namespace Fleet

/-- Plans dials that never end, one of each address for each worker. -/
def leaveDialsOpen (f : Fleet) : Fleet :=
  let plans := f.workers.map fun w => (w.key.addr, List.replicate f.workers.length Dial.hangs)
  { f with hub := { f.hub with network := ⟨plans⟩ } }

/-- Changes the worker in a slot, if there is one. -/
def changeWorker (f : Fleet) (slot : Nat) (change : Worker → Worker) : Fleet :=
  { f with workers := f.workers.modify slot change }

/-- Tells the worker in a slot what its dial came to.  A worker that waits for no dial ignores it.
-/
def dialEnded (f : Fleet) (slot : Nat) (outcome : Outcome) : Fleet :=
  f.changeWorker slot fun w =>
    match w.phase with
    | .dialing none _ => { w with phase := .dialing (some f.hub.now) outcome }
    | _ => w

/-- The link after its peer did something. -/
def linkAfter (now : Instant) (act : Peer) (link : Worker.Link) : Worker.Link :=
  { link with connection := ⟨link.connection.incoming ++ [(now, act)]⟩ }

/-- Tells the worker in a slot what its peer did.  A worker without a connection ignores it. -/
def peerActed (f : Fleet) (slot : Nat) (act : Peer) : Fleet :=
  f.changeWorker slot fun w =>
    match w.phase with
    | .reading link deadline =>
      { w with phase := .reading (linkAfter f.hub.now act link) deadline }
    | .delivering link m => { w with phase := .delivering (linkAfter f.hub.now act link) m }
    | _ => w

/-- The worker in a slot waits for something to read, and nothing is there. -/
def wantsToRead (f : Fleet) (slot : Nat) : Bool :=
  match f.workers[slot]? with
  | some { phase := .reading link _, .. } => link.connection.incoming.isEmpty
  | _ => false

end Fleet

/-- A capture over a network that is not planned. -/
structure Live where
  supervisor : Supervisor
  /-- The call of stop, once there is one. -/
  stopCall : Option StopCall := none
deriving DecidableEq, Repr

namespace Live

/-- The workers. -/
def fleet (l : Live) : Fleet := l.supervisor.fleet

/-- The same capture with its workers in another state. -/
def withFleet (l : Live) (f : Fleet) : Live :=
  { l with supervisor := { l.supervisor with fleet := f } }

/-- Lets the call of stop go on until it waits or is over. -/
def poll (l : Live) : Live :=
  match l.stopCall with
  | none => l
  | some call =>
    let (supervisor, call) := l.supervisor.pollStop call
    { supervisor, stopCall := some call }

/-- Lets every worker go on until it waits, and then the call of stop. -/
def settle (l : Live) : Live := (l.withFleet l.fleet.leaveDialsOpen.settle).poll

/-- Signals the workers to stop. -/
def shutDown (l : Live) : Live :=
  match l.stopCall with
  | some _ => l
  | none =>
    let (supervisor, call) := l.supervisor.pollStop .fresh
    { supervisor, stopCall := some call }

/-- The capture has stopped, and all its messages are received. -/
def isOver (l : Live) : Bool := l.stopCall = some .finished && l.fleet.atEnd

/-- What the workers and the supervisor did since this was asked last, the earliest first. -/
def takeEvents (l : Live) : List (Nat × Worker.Event) × List Supervisor.Event × Live :=
  (l.fleet.history.map Prod.snd, l.supervisor.history.map Prod.snd,
    ⟨{ l.supervisor with fleet := { l.fleet with past := [] }, past := [] }, l.stopCall⟩)

end Live

end FeedCapture
