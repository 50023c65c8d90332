import FeedCapture.Bus
import FeedCapture.Metrics
import FeedCapture.Policy
import FeedCapture.Registry
import FeedCapture.Transport

/-!
# Source workers

A worker keeps a connection to one source open.  It dials, pauses after a failed dial, reads until
the connection ends, puts every read on the bus as a message, and starts again; it ends when the
stop token is cancelled or nobody receives messages any more.

A worker does one thing at a time: it goes on by one step, or it waits.  Whatever it waits for, it
looks at cancellation first.  What it reads is looked at before the read deadline, so data that is
due exactly at the deadline is still read.

## Main definitions

* `Worker`, `Worker.Phase` — what a worker is doing
* `Hub` — what all workers share
* `Worker.Event` — what a worker does that can be observed
* `Worker.step?` — one step of a worker, nothing when it waits
* `Worker.wakeAt` — the time at which a waiting worker goes on by itself
-/

namespace FeedCapture

open Transport

/-- The state of the link to a source. -/
inductive LinkState where
  | disconnected
  | dialing
  | connected
  | stopped
deriving DecidableEq, Repr

/-- Why a worker stops reading from a connection. -/
inductive ReadExit where
  /-- Nothing came for longer than the idle timeout. -/
  | idle (silent : Duration)
  /-- The peer ended the stream. -/
  | eof
  | failed (e : Failure)
  /-- The connection was closed from this side. -/
  | closed
  /-- Nobody receives messages any more. -/
  | busClosed
deriving DecidableEq, Repr

/-- What all workers share. -/
structure Hub where
  policy : Policy := {}
  now : Instant := 0
  /-- The wall-clock time at the start of the clock, in milliseconds since the start of 1970. -/
  epoch : Int := 0
  tokens : TokenTree
  /-- The token that stops every worker. -/
  stop : Token
  /-- The bus; deliveries are named by the slots of their workers. -/
  bus : Bus Nat
  registry : Registry := {}
  /-- Events are counted. -/
  counting : Bool := true
  metrics : Metrics := {}
  network : Network := {}
deriving DecidableEq, Repr

namespace Hub

/-- The stop token is cancelled. -/
def stopping (h : Hub) : Bool := h.tokens.isCancelled h.stop

/-- Counts an event, if events are counted. -/
def count (h : Hub) (f : Metrics → Metrics) : Hub :=
  if h.counting then { h with metrics := f h.metrics } else h

/-- Counting changes the metrics alone. -/
theorem count_eq (h : Hub) (f : Metrics → Metrics) :
    ∃ metrics, h.count f = { h with metrics } := by
  by_cases counting : h.counting = true
  · exact ⟨f h.metrics, if_pos counting⟩
  · exact ⟨h.metrics, if_neg counting⟩

@[simp] theorem frame_count (h : Hub) (f : Metrics → Metrics) :
    (h.count f).policy = h.policy ∧ (h.count f).now = h.now ∧ (h.count f).epoch = h.epoch ∧
      (h.count f).tokens = h.tokens ∧ (h.count f).stop = h.stop ∧ (h.count f).bus = h.bus ∧
      (h.count f).registry = h.registry ∧ (h.count f).counting = h.counting := by
  obtain ⟨metrics, eq⟩ := h.count_eq f
  simp [eq]

@[simp] theorem network_count (h : Hub) (f : Metrics → Metrics) :
    (h.count f).network = h.network := by
  obtain ⟨metrics, eq⟩ := h.count_eq f
  rw [eq]

/-- The wall-clock time. -/
def wallClock (h : Hub) : Int := h.epoch + Duration.toMillis h.now

end Hub

namespace Worker

/-- A connection that a worker reads from. -/
structure Link where
  connection : Connection
  /-- The token that closes the connection. -/
  close : Token
  /-- When something was read last, or the connection opened. -/
  lastMessage : Instant
deriving DecidableEq, Repr

/-- What a worker is doing. -/
inductive Phase where
  /-- About to dial, or to stop. -/
  | ready
  /-- Waiting for a dial to end; `due` is missing when it never does. -/
  | dialing (due : Option Instant) (outcome : Outcome)
  /-- Waiting after a failed dial. -/
  | pausing (until_ : Instant)
  /-- Waiting for something to read, until the deadline. -/
  | reading (link : Link) (deadline : Instant)
  /-- Waiting for room on the bus. -/
  | delivering (link : Link) (message : Message)
  | stopped
  /-- Ended by a breakdown. -/
  | crashed (reason : String)
deriving DecidableEq, Repr

/-- The state of the link while the worker does something.  A crash leaves no link. -/
def Phase.link : Phase → LinkState
  | .ready => .disconnected
  | .dialing _ _ => .dialing
  | .pausing _ => .disconnected
  | .reading _ _ => .connected
  | .delivering _ _ => .connected
  | .stopped => .stopped
  | .crashed _ => .stopped

/-- What a worker does that can be observed. -/
inductive Event where
  /-- It starts to dial. -/
  | dialed
  /-- Its dial ended. -/
  | dialEnded (outcome : Outcome)
  | link (source target : LinkState)
  /-- The connection has no properties that can be set. -/
  | untunable
  | keepaliveSet (period : Duration) (failure : Option Failure)
  | nodelaySet (failure : Option Failure)
  /-- A dial failed, for the given time in a row. -/
  | dialFailed (e : Failure) (attempt : UInt64) (retryIn : Duration)
  | connected (r : Reconnect)
  | registry (notice : Registry.Notice)
  /-- The read deadline passed, and the connection is kept. -/
  | silent (elapsed : Duration)
  /-- A read came to something. -/
  | read (result : Connection.ReadResult)
  /-- A message is on the bus. -/
  | delivered (m : Message)
  /-- The delivery of a message ended without putting it on the bus. -/
  | undelivered (m : Message) (outcome : Delivery)
  | exited (reason : ReadExit)
  | stopped
deriving DecidableEq, Repr

end Worker

/-- A worker. -/
structure Worker where
  key : SourceKey
  phase : Worker.Phase := .ready
  outage : OutageTracker := {}
  /-- How many dials failed since the last connection, in a word of 64 bits. -/
  failedDials : UInt64 := 0
deriving DecidableEq, Repr

namespace Worker

/-- The worker does nothing any more. -/
def ended (w : Worker) : Bool :=
  match w.phase with
  | .stopped => true
  | .crashed _ => true
  | _ => false

/-- The worker has a connection. -/
def isConnected (w : Worker) : Bool := w.phase.link = .connected

/-- What a step leads to: the shared state, the worker, and what was observed. -/
structure Step where
  hub : Hub
  worker : Worker
  events : List Event := []

/-- The same step with something observed before it. -/
def Step.after (s : Step) (e : Event) : Step := { s with events := e :: s.events }

@[simp] theorem hub_after (s : Step) (e : Event) : (s.after e).hub = s.hub := rfl

@[simp] theorem worker_after (s : Step) (e : Event) : (s.after e).worker = s.worker := rfl

@[simp] theorem events_after (s : Step) (e : Event) : (s.after e).events = e :: s.events := rfl

/-- The change of the link from one phase to another; nothing when it stays as it is. -/
def linkEvents (source target : LinkState) : List Event :=
  if source = target then [] else [.link source target]

/-- Stops for good. -/
def stop (h : Hub) (w : Worker) : Step :=
  { hub := h
    worker := { w with phase := .stopped }
    events := linkEvents w.phase.link .stopped ++ [.stopped] }

/-- Starts to dial, unless the stop token is cancelled. -/
def begin (h : Hub) (w : Worker) : Step :=
  if h.stopping then stop h w
  else
    let (dial, network) := h.network.dial w.key.addr
    let phase : Phase := match dial with
      | .hangs => .dialing none (.refused { kind := .other })
      | .settles delay outcome => .dialing (some (h.now + delay)) outcome
    { hub := { h with network }
      worker := { w with phase }
      events := linkEvents w.phase.link .dialing ++ [.dialed] }

/-- Records a failed dial and starts to pause. -/
def failDial (h : Hub) (w : Worker) (e : Failure) : Step :=
  let attempt := w.failedDials + 1
  { hub := h.count fun m => m.recordDialFailure w.key.addr
    worker :=
      { w with
        phase := .pausing (h.now + h.policy.reconnectDelay)
        outage := (w.outage.markDown h.now).1
        failedDials := attempt }
    events := linkEvents w.phase.link .disconnected ++
      [.dialFailed e attempt h.policy.reconnectDelay] }

/-- Sets the properties of a new connection, as far as it has any. -/
def tune (p : Policy) : Option Tuning → List Event
  | none => [.untunable]
  | some t =>
    .keepaliveSet p.keepalivePeriod t.keepalive ::
      if p.nodelay then [.nodelaySet t.nodelay] else []

/-- Enters a new connection in the registry and starts to read from it. -/
def connect (h : Hub) (w : Worker) (peer : List (Duration × Peer)) (tuning : Option Tuning) :
    Step :=
  let (outage, reconnect) := w.outage.markUp h.now h.policy.outage
  let (tokens, close) := h.tokens.child h.stop
  let (registry, tokens, notices) := h.registry.register tokens w.key close
  let h := { h with tokens, registry }.count fun m => m.recordConnect w.key.addr
  let link : Link := ⟨Connection.opened h.now peer, close, h.now⟩
  { hub := h
    worker :=
      { w with phase := .reading link (h.now + h.policy.readDeadline), outage, failedDials := 0 }
    events := tune h.policy tuning ++ [.connected reconnect] ++ notices.map .registry ++
      linkEvents w.phase.link .connected }

/-- Leaves a connection: its entry is removed and the outage begins.  The worker goes on, unless
nobody receives messages any more. -/
def leave (h : Hub) (w : Worker) (reason : ReadExit) : Step :=
  let (registry, notices) := h.registry.unregister w.key
  let h := { h with registry }.count fun m => m.recordDisconnect w.key.addr
  let left : Worker := { w with phase := .ready, outage := (w.outage.markDown h.now).1 }
  let events := notices.map Event.registry ++ linkEvents w.phase.link .disconnected ++
    [.exited reason]
  if reason = .busClosed then
    let last := stop h left
    { last with events := events ++ last.events }
  else { hub := h, worker := left, events }

/-- Ends by a breakdown.  The entry of the connection is removed, and nothing else is said. -/
def crash (h : Hub) (w : Worker) (reason : String) : Step :=
  let (registry, notices) :=
    if w.isConnected then h.registry.unregister w.key else (h.registry, [])
  { hub := { h with registry }
    worker := { w with phase := .crashed reason }
    events := notices.map .registry }

/-- Goes on reading, with a new deadline. -/
def readOn (h : Hub) (w : Worker) (link : Link) : Worker :=
  { w with phase := .reading link (h.now + h.policy.readDeadline) }

/-- Counts a message that is on the bus and goes on reading. -/
def delivered (h : Hub) (w : Worker) (link : Link) (m : Message) : Step :=
  { hub := h.count fun c => c.recordMessage w.key.addr m.data.length
    worker := w.readOn h link
    events := [.delivered m] }

/-- Puts what was read on the bus, or waits for room. -/
def deliver (h : Hub) (w : Worker) (link : Link) (data : Bytes) : Step :=
  let m : Message := { source := w.key.addr, data, timestamp := h.wallClock }
  match h.bus.offer m with
  | (bus, .queued) => delivered { h with bus } w link m
  | (_, .closed) => (leave h w .busClosed).after (.undelivered m .closed)
  | (bus, .full) =>
    { hub := { h with bus := bus.park w.key.slot }
      worker := { w with phase := .delivering link m } }

/-- Takes in what a read came to. -/
def received (h : Hub) (w : Worker) (link : Link) : Connection.ReadResult → Step
  | .data bytes => deliver h w { link with lastMessage := h.now } bytes
  | .ended => leave h w .eof
  | .failed e => leave h w (.failed e)
  | .brokeDown reason => crash h w reason

/-- Decides at the read deadline whether the connection is stale. -/
def timeOut (h : Hub) (w : Worker) (link : Link) : Step :=
  let silent := h.now - link.lastMessage
  if h.policy.idleTimeout < silent then leave h w (.idle silent)
  else { hub := h, worker := w.readOn h link, events := [.silent silent] }

/-- What a dial leads to when it has ended. -/
def dialEnded (h : Hub) (w : Worker) : Outcome → Step
  | .refused e => failDial h w e
  | .breaksDown reason => crash h w reason
  | .connected peer tuning => connect h w peer tuning

/-- One step of a worker; nothing when it waits or has ended. -/
def step? (h : Hub) (w : Worker) : Option Step :=
  match w.phase with
  | .ready => some (begin h w)
  | .dialing due outcome =>
    if h.stopping then some (stop h w)
    else
      match due with
      | none => none
      | some due =>
        if due ≤ h.now then some ((dialEnded h w outcome).after (.dialEnded outcome)) else none
  | .pausing until_ =>
    if h.stopping then some (stop h w)
    else if until_ ≤ h.now then some { hub := h, worker := { w with phase := .ready } }
    else none
  | .reading link deadline =>
    if h.tokens.isCancelled link.close then some (leave h w .closed)
    else
      match link.connection.read? h.now h.policy.readBufferSize with
      | some (result, connection) =>
        some ((received h w { link with connection } result).after (.read result))
      | none => if deadline ≤ h.now then some (timeOut h w link) else none
  | .delivering link m =>
    if h.tokens.isCancelled link.close then
      some ((leave { h with bus := h.bus.leave w.key.slot } w .closed).after
        (.undelivered m .stopped))
    else
      match h.bus.claim w.key.slot m with
      | (bus, some .closed) =>
        some ((leave { h with bus } w .busClosed).after (.undelivered m .closed))
      | (bus, some _) => some (delivered { h with bus } w link m)
      | (_, none) => none
  | .stopped => none
  | .crashed _ => none

/-- The earlier of two times, where a missing one never comes. -/
def earlier : Option Instant → Option Instant → Option Instant
  | some a, some b => some (min a b)
  | some a, none => some a
  | none, b => b

/-- When a waiting worker goes on although nothing else happens. -/
def wakeAt (w : Worker) : Option Instant :=
  match w.phase with
  | .dialing due _ => due
  | .pausing until_ => some until_
  | .reading link deadline => earlier link.connection.nextAt (some deadline)
  | _ => none

end Worker

end FeedCapture
