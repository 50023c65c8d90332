import FeedCapture.Fleet
import FeedCapture.Log
import FeedCapture.Text.Escaped

/-!
# The capture supervisor

The supervisor starts one worker for each source, at most once, and stops them.  A call of stop
signals the workers if it is the first one, then joins the workers that nobody has joined yet, the
last one first, and closes the bus.  A call can be given up while it waits for a worker: then the
bus is closed at once, and the worker that it waited for is joined by nobody.

## Main definitions

* `Supervisor`, with `Supervisor.create` and `Supervisor.start`
* `StopCall`, with `Supervisor.pollStop` and `Supervisor.dropStop`
* `Supervisor.Event.report` — what the supervisor reports
-/

namespace FeedCapture

/-- What a supervisor does that can be observed. -/
inductive Supervisor.Event where
  | started (sources : Nat)
  | alreadyStarted
  | alreadyStopped
  /-- The bus gives no sender for the workers. -/
  | cannotStart
  /-- The live connections are told to close. -/
  | forceClosed (connections : Nat)
  | workerCrashed (reason : String)
  /-- A call of stop ended that was the first or joined somebody. -/
  | stopped (workers : Nat)
  /-- A call of stop ended that found nothing to do. -/
  | nothingToStop
deriving DecidableEq, Repr

/-- The log entry of an event. -/
def Supervisor.Event.report : Supervisor.Event → Log.Entry
  | .started n => ⟨.info, "capture started", [("sources", .number n)]⟩
  | .alreadyStarted => ⟨.warn, "capture already started, ignoring start", []⟩
  | .alreadyStopped => ⟨.warn, "capture already stopped, ignoring start", []⟩
  | .cannotStart => ⟨.warn, "cannot start capture", [("error", .text Bus.closedMessage)]⟩
  | .forceClosed n => ⟨.debug, "force-closed live connections", [("closed", .number n)]⟩
  | .workerCrashed reason =>
    ⟨.error, "source worker panicked",
      [("error", .text ("task N panicked with message " ++ Text.escaped reason))]⟩
  | .stopped n => ⟨.info, "capture stopped", [("workers", .number n)]⟩
  | .nothingToStop => ⟨.debug, "capture already stopped", []⟩

/-- A supervisor with its workers. -/
structure Supervisor where
  sources : List String
  fleet : Fleet
  started : Bool := false
  stopped : Bool := false
  /-- The slots of the workers that nobody has joined or waits for; the last one is next. -/
  unjoined : List Nat := []
  /-- What the supervisor did, the latest first. -/
  past : List (Instant × Supervisor.Event) := []
deriving DecidableEq, Repr

/-- A call of stop. -/
inductive StopCall where
  /-- The call has not run yet. -/
  | fresh
  /-- The call waits for the worker in a slot. -/
  | joining (first : Bool) (joined slot : Nat)
  /-- The call is over, or was given up. -/
  | finished
deriving DecidableEq, Repr

namespace Supervisor

/-- Why there is no supervisor for a policy. -/
inductive Refusal where
  | policy (e : Policy.Invalid)
  | bus (e : Bus.InvalidCapacity)
deriving DecidableEq, Repr

/-- The wording of each reason. -/
def Refusal.message : Refusal → String
  | .policy e => e.message
  | .bus .zero => "Message bus error: " ++ Bus.InvalidCapacity.message .zero
  | .bus .tooLarge => Bus.InvalidCapacity.message .tooLarge

/-- A supervisor for some sources, if the policy is one that workers can obey. -/
def create (sources : List String) (policy : Policy) (network : Network) (counting : Bool) :
    Except Refusal Supervisor :=
  match policy.check with
  | .error e => .error (.policy e)
  | .ok _ =>
    match Bus.withCapacity Nat policy.busCapacity with
    | .error e => .error (.bus e)
    | .ok bus => .ok { sources, fleet := Fleet.create policy network bus counting false }

/-- What the supervisor did, the earliest first. -/
def history (s : Supervisor) : List (Instant × Event) := s.past.reverse

/-- Notes an event. -/
def note (s : Supervisor) (e : Event) : Supervisor :=
  { s with past := (s.fleet.hub.now, e) :: s.past }

/-- Starts one worker for each source, unless this was done before or the capture was stopped. -/
def start (s : Supervisor) : Supervisor :=
  if s.stopped then s.note .alreadyStopped
  else if s.started then s.note .alreadyStarted
  else
    let s := { s with started := true }
    if !s.fleet.hub.bus.ownSender then s.note .cannotStart
    else
      { s with
        fleet := s.fleet.spawn s.sources
        unjoined := List.range s.sources.length }.note (.started s.sources.length)

/-- The crash of the worker in a slot, if it has crashed. -/
def crashOf (s : Supervisor) (slot : Nat) : Option String :=
  match s.fleet.workers[slot]? with
  | some { phase := .crashed reason, .. } => some reason
  | _ => none

/-- The worker in a slot has ended. -/
def hasEnded (s : Supervisor) (slot : Nat) : Bool :=
  match s.fleet.workers[slot]? with
  | some w => w.ended
  | none => true

/-- Ends a call of stop: the bus is closed. -/
def finishStop (s : Supervisor) (first : Bool) (joined : Nat) : Supervisor × StopCall :=
  ({ s with fleet := s.fleet.closeBus.1 }.note
      (if first || 0 < joined then .stopped joined else .nothingToStop), .finished)

/-- Notes the crash of a worker that is joined, if it has crashed. -/
def noteJoin (s : Supervisor) (slot : Nat) : Supervisor :=
  match s.crashOf slot with
  | some reason => s.note (.workerCrashed reason)
  | none => s

/-- Joins workers until one has not ended, or none is left.  The slots are those of the workers that
nobody has joined, the next one first. -/
def joinWorkers (first : Bool) (joined : Nat) : List Nat → Supervisor → Supervisor × StopCall
  | [], s => { s with unjoined := [] }.finishStop first joined
  | slot :: rest, s =>
    if s.hasEnded slot then joinWorkers first (joined + 1) rest (s.noteJoin slot)
    else ({ s with unjoined := rest.reverse }, .joining first joined slot)

/-- Signals the workers to stop; only the first call does. -/
def signal (s : Supervisor) : Supervisor :=
  let (fleet, connections) := s.fleet.stop.closeAll
  { s with fleet, stopped := true }.note (.forceClosed connections)

/-- Lets a call of stop go on until it waits or is over. -/
def pollStop (s : Supervisor) : StopCall → Supervisor × StopCall
  | .fresh =>
    let first := !s.stopped
    let s := if first then s.signal else s
    joinWorkers first 0 s.unjoined.reverse s
  | .joining first joined slot =>
    if s.hasEnded slot then
      let s := s.noteJoin slot
      joinWorkers first (joined + 1) s.unjoined.reverse s
    else (s, .joining first joined slot)
  | .finished => (s, .finished)

/-- Gives a call of stop up.  One that has run closes the bus. -/
def dropStop (s : Supervisor) : StopCall → Supervisor
  | .joining _ _ _ => { s with fleet := s.fleet.closeBus.1 }
  | _ => s

/-- The addresses of the live connections, in alphabetical order. -/
def activeConnections (s : Supervisor) : List String := s.fleet.hub.registry.addresses

end Supervisor

end FeedCapture
