import FeedCapture.Worker

/-!
# Fleets of workers

All workers of a capture with what they share and what they did.  The workers take steps in any
order; time passes only when it is moved on.

## Main definitions

* `Fleet`, with `Fleet.spawn` and `Fleet.stepWorker?`
* `Fleet.settle` — lets every worker go on until it waits
* `Fleet.receive?`, `Fleet.atEnd` — the receiving side of the bus
* `Fleet.wakeAt` — when the next worker goes on by itself
-/

namespace FeedCapture

/-- All workers, what they share, and what they did. -/
structure Fleet where
  hub : Hub
  /-- The workers, each at the place that its slot names. -/
  workers : List Worker := []
  /-- Whoever starts the workers holds a sender for them. -/
  spareSender : Bool := false
  /-- What the workers did, with the time and the slot, the latest first. -/
  past : List (Instant × Nat × Worker.Event) := []
deriving DecidableEq, Repr

namespace Fleet

/-- A fleet without workers around a new bus. -/
def create (policy : Policy) (network : Network) (bus : Bus Nat) (counting spareSender : Bool) :
    Fleet :=
  let (tokens, stop) := TokenTree.fresh {}
  { hub := { policy, tokens, stop, bus, counting, network }, spareSender }

/-- What the workers did, the earliest first. -/
def history (f : Fleet) : List (Instant × Nat × Worker.Event) := f.past.reverse

/-- Adds one worker for each address; the slots count up from zero. -/
def spawn (f : Fleet) (addrs : List String) : Fleet :=
  { f with
    workers := addrs.mapIdx fun slot addr => { key := ⟨slot, addr⟩ }
    spareSender := false }

/-! ## Steps -/

/-- The fleet after a step of the worker in a slot. -/
def afterStep (f : Fleet) (slot : Nat) (s : Worker.Step) : Fleet :=
  { f with
    hub := s.hub
    workers := f.workers.set slot s.worker
    past := (s.events.map fun e => (f.hub.now, slot, e)).reverse ++ f.past }

/-- One step of the worker in a slot; nothing when it waits, has ended, or does not exist. -/
def stepWorker? (f : Fleet) (slot : Nat) : Option Fleet :=
  match f.workers[slot]? with
  | none => none
  | some w => (w.step? f.hub).map (f.afterStep slot)

/-- Lets the worker in a slot go on until it waits, for at most so many steps. -/
def runWorker (slot : Nat) : Nat → Fleet → Fleet
  | 0, f => f
  | fuel + 1, f =>
    match f.stepWorker? slot with
    | none => f
    | some f => runWorker slot fuel f

/-- Lets each of the workers in some slots go on until it waits. -/
def runWorkers (fuel : Nat) (f : Fleet) (slots : List Nat) : Fleet :=
  slots.foldl (fun f slot => runWorker slot fuel f) f

/-- Some worker can go on. -/
def canStep (f : Fleet) : Bool := f.workers.any fun w => (w.step? f.hub).isSome

/-- Lets all workers go on until each of them waits, in at most so many rounds. -/
def rounds (effort : Nat) : Nat → Fleet → Fleet
  | 0, f => f
  | fuel + 1, f =>
    if f.canStep then rounds effort fuel (runWorkers effort f (List.range f.workers.length)) else f

/-- The efforts for several things together. -/
def together {α : Type} (effort : α → Nat) (xs : List α) : Nat :=
  xs.foldl (fun total x => total + effort x) 0

/-- The steps that one act of a peer can give rise to. -/
def peerEffort : Transport.Peer → Nat
  | .sends data => 4 + 2 * data.length
  | _ => 4

/-- The steps that what the peer of a connection does can give rise to. -/
def peersEffort {α : Type} (acts : List (α × Transport.Peer)) : Nat :=
  together (fun p => peerEffort p.2) acts

/-- The steps that the outcome of a dial can give rise to. -/
def outcomeEffort : Transport.Outcome → Nat
  | .connected peer _ => 8 + peersEffort peer
  | _ => 8

/-- The steps that one planned dial can give rise to. -/
def dialEffort : Transport.Dial → Nat
  | .settles _ outcome => outcomeEffort outcome
  | .hangs => 8

/-- The steps that a worker can take with what has been planned for its dial or connection. -/
def workerEffort (w : Worker) : Nat :=
  match w.phase with
  | .dialing _ outcome => 16 + outcomeEffort outcome
  | .reading link _ => 16 + peersEffort link.connection.incoming
  | .delivering link _ => 16 + peersEffort link.connection.incoming
  | _ => 16

/-- More steps than all workers together can take before time passes. -/
def effort (f : Fleet) : Nat :=
  16 + together workerEffort f.workers +
    together (fun p => together dialEffort p.2) f.hub.network.plans

/-- Lets every worker go on until it waits, where the effort is no less than that of the fleet. -/
def settleWithin (effort : Nat) (f : Fleet) : Fleet := rounds effort effort f

/-- Lets every worker go on until it waits. -/
def settle (f : Fleet) : Fleet := f.settleWithin f.effort

/-! ## Receiving -/

/-- Somebody can still send. -/
def hasSender (f : Fleet) : Bool :=
  f.hub.bus.ownSender || f.spareSender || f.workers.any fun w => !w.ended

/-- The messages are over: none is queued and nobody can send any more. -/
def atEnd (f : Fleet) : Bool := f.hub.bus.queue.isEmpty && !f.hasSender

/-- Receives the oldest message, if one is queued. -/
def receive? (f : Fleet) : Option (Message × Fleet) :=
  f.hub.bus.take?.map fun (m, bus) => (m, { f with hub := { f.hub with bus } })

/-- Nobody receives any more, and the bus itself is gone. -/
def dropReceivers (f : Fleet) : Fleet :=
  { f with hub := { f.hub with bus := (f.hub.bus.close).1.dropReceiver } }

/-! ## Control -/

/-- Cancels the stop token. -/
def stop (f : Fleet) : Fleet :=
  { f with hub := { f.hub with tokens := f.hub.tokens.cancel f.hub.stop } }

/-- Closes every connection, and tells how many these are. -/
def closeAll (f : Fleet) : Fleet × Nat :=
  ({ f with hub := { f.hub with tokens := f.hub.registry.closeAll f.hub.tokens } },
    f.hub.registry.size)

/-- Gives up the bus's own sender, and tells whether it still had it. -/
def closeBus (f : Fleet) : Fleet × Bool :=
  let (bus, first) := f.hub.bus.close
  ({ f with hub := { f.hub with bus } }, first)

/-! ## Time -/

/-- When the next worker goes on although nothing else happens. -/
def wakeAt (f : Fleet) : Option Instant :=
  f.workers.foldl (fun t w => Worker.earlier t w.wakeAt) none

/-- Moves the clock on. -/
def moveTo (f : Fleet) (t : Instant) : Fleet := { f with hub := { f.hub with now := t } }

end Fleet

end FeedCapture
