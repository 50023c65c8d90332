import FeedCapture.Worker

/-!
# What a step of a worker can be

The steps of a worker, one rule for each branch, with what must hold for it and what it leads to
(`Worker.Transition`).  Everything that is said about the steps of workers is said by cases on these
rules.

## Main definitions

* `Worker.Phase.open?` — the connection of a worker
* `Worker.Transition` — the steps of a worker

The main statement says that a worker takes no other steps (`transition_of_step?`).
-/

namespace FeedCapture.Worker

open Transport

/-- The connection that a worker has. -/
def Phase.open? : Phase → Option Link
  | .reading link _ => some link
  | .delivering link _ => some link
  | _ => none

/-- The message that a read leads to. -/
def message (h : Hub) (w : Worker) (data : Bytes) : Message :=
  { source := w.key.addr, data, timestamp := h.wallClock }

/-- A link from which something was just read. -/
def Link.readNow (link : Link) (h : Hub) (connection : Connection) : Link :=
  { link with connection, lastMessage := h.now }

/-- The steps of a worker: what must hold for each, and what it leads to. -/
inductive Transition (h : Hub) (w : Worker) : Step → Prop
  /-- It stops, whether it is about to dial, dials or pauses. -/
  | halt (idle : w.phase = .ready ∨ (∃ due outcome, w.phase = .dialing due outcome) ∨
        ∃ until_, w.phase = .pausing until_)
      (stopping : h.stopping = true) :
      Transition h w (stop h w)
  | dial (phase : w.phase = .ready) (going : h.stopping = false) :
      Transition h w (begin h w)
  | refused {due : Instant} {e : Failure} (phase : w.phase = .dialing (some due) (.refused e))
      (going : h.stopping = false) (passed : due ≤ h.now) :
      Transition h w ((failDial h w e).after (.dialEnded (.refused e)))
  | dialBroke {due : Instant} {reason : String}
      (phase : w.phase = .dialing (some due) (.breaksDown reason))
      (going : h.stopping = false) (passed : due ≤ h.now) :
      Transition h w ((crash h w reason).after (.dialEnded (.breaksDown reason)))
  | connected {due : Instant} {peer : List (Duration × Peer)} {tuning : Option Tuning}
      (phase : w.phase = .dialing (some due) (.connected peer tuning))
      (going : h.stopping = false) (passed : due ≤ h.now) :
      Transition h w ((connect h w peer tuning).after (.dialEnded (.connected peer tuning)))
  /-- The pause after a failed dial is over. -/
  | retry {until_ : Instant} (phase : w.phase = .pausing until_)
      (going : h.stopping = false) (passed : until_ ≤ h.now) :
      Transition h w { hub := h, worker := { w with phase := .ready } }
  /-- The connection is closed from this side while the worker waits for something to read. -/
  | closed {link : Link} {deadline : Instant} (phase : w.phase = .reading link deadline)
      (close : h.tokens.isCancelled link.close = true) :
      Transition h w (leave h w .closed)
  | eof {link : Link} {deadline : Instant} {c : Connection}
      (phase : w.phase = .reading link deadline)
      (going : h.tokens.isCancelled link.close = false)
      (read : link.connection.read? h.now h.policy.readBufferSize = some (.ended, c)) :
      Transition h w ((leave h w .eof).after (.read .ended))
  | failed {link : Link} {deadline : Instant} {c : Connection} {e : Failure}
      (phase : w.phase = .reading link deadline)
      (going : h.tokens.isCancelled link.close = false)
      (read : link.connection.read? h.now h.policy.readBufferSize = some (.failed e, c)) :
      Transition h w ((leave h w (.failed e)).after (.read (.failed e)))
  | readBroke {link : Link} {deadline : Instant} {c : Connection} {reason : String}
      (phase : w.phase = .reading link deadline)
      (going : h.tokens.isCancelled link.close = false)
      (read : link.connection.read? h.now h.policy.readBufferSize = some (.brokeDown reason, c)) :
      Transition h w ((crash h w reason).after (.read (.brokeDown reason)))
  /-- What was read is queued at once. -/
  | queued {link : Link} {deadline : Instant} {c : Connection} {data : Bytes} {bus : Bus Nat}
      (phase : w.phase = .reading link deadline)
      (going : h.tokens.isCancelled link.close = false)
      (read : link.connection.read? h.now h.policy.readBufferSize = some (.data data, c))
      (offer : h.bus.offer (w.message h data) = (bus, .queued)) :
      Transition h w
        ((delivered { h with bus } w (link.readNow h c) (w.message h data)).after
          (.read (.data data)))
  /-- What was read has to wait for room. -/
  | parked {link : Link} {deadline : Instant} {c : Connection} {data : Bytes} {bus : Bus Nat}
      (phase : w.phase = .reading link deadline)
      (going : h.tokens.isCancelled link.close = false)
      (read : link.connection.read? h.now h.policy.readBufferSize = some (.data data, c))
      (offer : h.bus.offer (w.message h data) = (bus, .full)) :
      Transition h w
        { hub := { h with bus := bus.park w.key.slot }
          worker := { w with phase := .delivering (link.readNow h c) (w.message h data) }
          events := [.read (.data data)] }
  /-- What was read finds nobody who receives it. -/
  | unwanted {link : Link} {deadline : Instant} {c : Connection} {data : Bytes} {bus : Bus Nat}
      (phase : w.phase = .reading link deadline)
      (going : h.tokens.isCancelled link.close = false)
      (read : link.connection.read? h.now h.policy.readBufferSize = some (.data data, c))
      (offer : h.bus.offer (w.message h data) = (bus, .closed)) :
      Transition h w
        (((leave h w .busClosed).after (.undelivered (w.message h data) .closed)).after
          (.read (.data data)))
  | idle {link : Link} {deadline : Instant} (phase : w.phase = .reading link deadline)
      (going : h.tokens.isCancelled link.close = false)
      (read : link.connection.read? h.now h.policy.readBufferSize = none)
      (passed : deadline ≤ h.now) (stale : h.policy.idleTimeout < h.now - link.lastMessage) :
      Transition h w (leave h w (.idle (h.now - link.lastMessage)))
  /-- The read deadline passed, but the silence is not long enough yet. -/
  | silent {link : Link} {deadline : Instant} (phase : w.phase = .reading link deadline)
      (going : h.tokens.isCancelled link.close = false)
      (read : link.connection.read? h.now h.policy.readBufferSize = none)
      (passed : deadline ≤ h.now) (fresh : h.now - link.lastMessage ≤ h.policy.idleTimeout) :
      Transition h w
        { hub := h, worker := w.readOn h link, events := [.silent (h.now - link.lastMessage)] }
  /-- The wait for room is given up because the connection is closed from this side. -/
  | givenUp {link : Link} {m : Message} (phase : w.phase = .delivering link m)
      (close : h.tokens.isCancelled link.close = true) :
      Transition h w
        ((leave { h with bus := h.bus.leave w.key.slot } w .closed).after (.undelivered m .stopped))
  /-- The wait for room ends because nobody receives any more. -/
  | abandoned {link : Link} {m : Message} {bus : Bus Nat} (phase : w.phase = .delivering link m)
      (going : h.tokens.isCancelled link.close = false)
      (claim : h.bus.claim w.key.slot m = (bus, some .closed)) :
      Transition h w ((leave { h with bus } w .busClosed).after (.undelivered m .closed))
  /-- The wait for room is over, and the message is queued. -/
  | handedOver {link : Link} {m : Message} {bus : Bus Nat} (phase : w.phase = .delivering link m)
      (going : h.tokens.isCancelled link.close = false)
      (claim : h.bus.claim w.key.slot m = (bus, some .delivered)) :
      Transition h w (delivered { h with bus } w link m)

/-- What a read leads to is one of the steps. -/
theorem transition_of_read {h : Hub} {w : Worker} {link : Link} {deadline : Instant}
    {result : Connection.ReadResult} {c : Connection} (phase : w.phase = .reading link deadline)
    (going : h.tokens.isCancelled link.close = false)
    (read : link.connection.read? h.now h.policy.readBufferSize = some (result, c)) :
    Transition h w ((received h w { link with connection := c } result).after (.read result)) := by
  cases result with
  | data data =>
    simp only [received, deliver]
    rcases offer : h.bus.offer (w.message h data) with ⟨bus, _ | _ | _⟩
    · simp only [message] at offer
      simp only [offer]
      exact .queued phase going read offer
    · simp only [message] at offer
      simp only [offer]
      exact .parked phase going read offer
    · simp only [message] at offer
      simp only [offer]
      exact .unwanted phase going read offer
  | ended => exact .eof phase going read
  | failed e => exact .failed phase going read
  | brokeDown reason => exact .readBroke phase going read

/-- A delivery that waits is never told to stop by the bus itself. -/
theorem claim_ne_stopped (b : Bus Nat) (slot : Nat) (m : Message) :
    (b.claim slot m).2 ≠ some .stopped := by
  unfold Bus.claim
  split
  · simp
  · split <;> simp

/-- A worker takes no other steps. -/
theorem transition_of_step? {h : Hub} {w : Worker} {s : Step} (hs : w.step? h = some s) :
    Transition h w s := by
  cases phase : w.phase with
  | ready =>
    simp only [step?, phase, Option.some.injEq] at hs
    subst hs
    cases going : h.stopping with
    | true =>
      have same : begin h w = stop h w := by simp [begin, going]
      exact same ▸ .halt (.inl phase) going
    | false => exact .dial phase going
  | dialing due outcome =>
    simp only [step?, phase] at hs
    split at hs
    · next stopping =>
      cases hs
      exact .halt (.inr (.inl ⟨due, outcome, phase⟩)) stopping
    · next going =>
      have going : h.stopping = false := by simpa using going
      cases due with
      | none => cases hs
      | some due =>
        simp only [Option.ite_none_right_eq_some, Option.some.injEq] at hs
        obtain ⟨passed, rfl⟩ := hs
        cases outcome with
        | refused e => exact .refused phase going passed
        | breaksDown reason => exact .dialBroke phase going passed
        | connected peer tuning => exact .connected phase going passed
  | pausing until_ =>
    simp only [step?, phase] at hs
    split at hs
    · next stopping =>
      cases hs
      exact .halt (.inr (.inr ⟨until_, phase⟩)) stopping
    · next going =>
      simp only [Option.ite_none_right_eq_some, Option.some.injEq] at hs
      obtain ⟨passed, rfl⟩ := hs
      exact .retry phase (by simpa using going) passed
  | reading link deadline =>
    simp only [step?, phase] at hs
    split at hs
    · next close =>
      cases hs
      exact .closed phase close
    · next going =>
      have going : h.tokens.isCancelled link.close = false := by simpa using going
      split at hs
      · next result c read =>
        cases hs
        exact transition_of_read phase going read
      · next read =>
        simp only [Option.ite_none_right_eq_some, Option.some.injEq] at hs
        obtain ⟨passed, rfl⟩ := hs
        simp only [timeOut]
        split
        · next stale => exact .idle phase going read passed stale
        · next fresh => exact .silent phase going read passed (Nat.le_of_not_lt fresh)
  | delivering link m =>
    simp only [step?, phase] at hs
    split at hs
    · next close =>
      cases hs
      exact .givenUp phase close
    · next going =>
      have going : h.tokens.isCancelled link.close = false := by simpa using going
      split at hs
      · next claim =>
        cases hs
        exact .abandoned phase going claim
      · next bus outcome other claim =>
        cases hs
        cases outcome with
        | delivered => exact .handedOver phase going claim
        | stopped => exact absurd (congrArg Prod.snd claim) (claim_ne_stopped _ _ _)
        | closed => exact absurd rfl other
      · cases hs
  | stopped => simp [step?, phase] at hs
  | crashed reason => simp [step?, phase] at hs

/-! ## What the steps lead to -/

variable (h : Hub) (w : Worker)

@[simp] theorem hub_stop : (stop h w).hub = h := rfl

@[simp] theorem phase_stop : (stop h w).worker.phase = .stopped := rfl

theorem phase_connect (peer : List (Duration × Peer)) (tuning : Option Tuning) :
    (connect h w peer tuning).worker.phase =
      .reading ⟨Connection.opened h.now peer, (h.tokens.child h.stop).2, h.now⟩
        (h.now + h.policy.readDeadline) := by
  simp [connect]

/-- Leaving a connection leaves the worker without one. -/
theorem open?_leave (reason : ReadExit) : (leave h w reason).worker.phase.open? = none := by
  unfold leave
  dsimp only
  split <;> rfl

theorem open?_begin : (begin h w).worker.phase.open? = none := by
  unfold begin
  split
  · rfl
  · dsimp only
    split <;> rfl

@[simp] theorem bus_begin : (begin h w).hub.bus = h.bus := by
  unfold begin
  split <;> rfl

@[simp] theorem bus_failDial (e : Failure) : (failDial h w e).hub.bus = h.bus := by
  simp [failDial]

@[simp] theorem bus_crash (reason : String) : (crash h w reason).hub.bus = h.bus := rfl

@[simp] theorem bus_connect (peer : List (Duration × Peer)) (tuning : Option Tuning) :
    (connect h w peer tuning).hub.bus = h.bus := by
  simp [connect]

@[simp] theorem bus_delivered (link : Link) (m : Message) :
    (delivered h w link m).hub.bus = h.bus := by
  simp [delivered]

@[simp] theorem bus_leave (reason : ReadExit) : (leave h w reason).hub.bus = h.bus := by
  unfold leave
  dsimp only
  split <;> simp

theorem hub_begin (going : h.stopping = false) :
    (begin h w).hub = { h with network := (h.network.dial w.key.addr).2 } := by
  simp [begin, going]

theorem registry_crash (reason : String) :
    (crash h w reason).hub.registry =
      if w.isConnected then (h.registry.unregister w.key).1 else h.registry := by
  unfold crash
  by_cases connected : w.isConnected = true
  · simp [connected]
  · simp [connected]

/-- What no step of a worker changes. -/
structure Kept (h h' : Hub) : Prop where
  policy : h'.policy = h.policy
  now : h'.now = h.now
  epoch : h'.epoch = h.epoch
  stop : h'.stop = h.stop
  counting : h'.counting = h.counting
  capacity : h'.bus.capacity = h.bus.capacity
  ownSender : h'.bus.ownSender = h.bus.ownSender
  receiving : h'.bus.receiving = h.bus.receiving

theorem Kept.refl : Kept h h := ⟨rfl, rfl, rfl, rfl, rfl, rfl, rfl, rfl⟩

variable {h w}

theorem kept_leave {bus : Bus Nat} (capacity : bus.capacity = h.bus.capacity)
    (own : bus.ownSender = h.bus.ownSender) (receiving : bus.receiving = h.bus.receiving)
    (reason : ReadExit) : Kept h (leave { h with bus } w reason).hub := by
  unfold leave
  dsimp only
  split <;> constructor <;> simp [capacity, own, receiving]

theorem kept_delivered {bus : Bus Nat} (capacity : bus.capacity = h.bus.capacity)
    (own : bus.ownSender = h.bus.ownSender) (receiving : bus.receiving = h.bus.receiving)
    (link : Link) (m : Message) : Kept h (delivered { h with bus } w link m).hub := by
  constructor <;> simp [delivered, capacity, own, receiving]

theorem kept_of_transition {s : Step} (step : Transition h w s) : Kept h s.hub := by
  cases step with
  | halt idle stopping => exact .refl h
  | dial phase going =>
    simp only [begin, going, Bool.false_eq_true, if_false]
    exact ⟨rfl, rfl, rfl, rfl, rfl, rfl, rfl, rfl⟩
  | refused phase going passed => constructor <;> simp [Step.after, failDial]
  | dialBroke phase going passed => exact ⟨rfl, rfl, rfl, rfl, rfl, rfl, rfl, rfl⟩
  | connected phase going passed => constructor <;> simp [Step.after, connect]
  | retry phase going passed => exact .refl h
  | closed phase close => exact kept_leave rfl rfl rfl _
  | eof phase going read => exact kept_leave rfl rfl rfl _
  | failed phase going read => exact kept_leave rfl rfl rfl _
  | readBroke phase going read => exact ⟨rfl, rfl, rfl, rfl, rfl, rfl, rfl, rfl⟩
  | @queued link deadline c data bus phase going read offer =>
    have bus_eq : bus = (h.bus.offer (w.message h data)).1 := by rw [offer]
    exact kept_delivered (by simp [bus_eq]) (by simp [bus_eq]) (by simp [bus_eq])
      (link.readNow h c) _
  | @parked link deadline c data bus phase going read offer =>
    have bus_eq : bus = (h.bus.offer (w.message h data)).1 := by rw [offer]
    constructor <;> simp [bus_eq]
  | unwanted phase going read offer => exact kept_leave rfl rfl rfl _
  | idle phase going read passed stale => exact kept_leave rfl rfl rfl _
  | silent phase going read passed fresh => exact .refl h
  | givenUp phase close => exact kept_leave (by simp) (by simp) (by simp) _
  | @abandoned link m bus phase going claim =>
    have bus_eq : bus = (h.bus.claim w.key.slot m).1 := by rw [claim]
    exact kept_leave (by simp [bus_eq]) (by simp [bus_eq]) (by simp [bus_eq]) _
  | @handedOver link m bus phase going claim =>
    have bus_eq : bus = (h.bus.claim w.key.slot m).1 := by rw [claim]
    exact kept_delivered (by simp [bus_eq]) (by simp [bus_eq]) (by simp [bus_eq]) _ _

theorem key_begin (h : Hub) (w : Worker) : (begin h w).worker.key = w.key := by
  unfold begin
  split <;> rfl

@[simp] theorem key_leave (h : Hub) (w : Worker) (reason : ReadExit) :
    (leave h w reason).worker.key = w.key := by
  unfold leave
  dsimp only
  split <;> rfl

/-- A worker works for one source. -/
theorem key_of_transition {s : Step} (step : Transition h w s) : s.worker.key = w.key := by
  cases step with
  | dial => exact key_begin ..
  | closed => exact key_leave ..
  | eof => exact key_leave ..
  | failed => exact key_leave ..
  | unwanted => exact key_leave ..
  | idle => exact key_leave ..
  | givenUp => exact key_leave ..
  | abandoned => exact key_leave ..
  | _ => rfl

/-! ## Events that accompany others -/

/-- The event tells no more than how the link, the properties of a connection or the registry
changed, or that something ended. -/
def Event.plain : Event → Bool
  | .link _ _ => true
  | .untunable => true
  | .keepaliveSet _ _ => true
  | .nodelaySet _ => true
  | .registry (.registered _) => true
  | .registry (.unregistered _) => true
  | .exited _ => true
  | .stopped => true
  | _ => false

/-- Nothing but such events. -/
def Plain (es : List Event) : Prop := ∀ e ∈ es, e.plain = true

theorem Plain.nil : Plain [] := List.forall_mem_nil _

theorem Plain.single {e : Event} (he : e.plain = true) : Plain [e] :=
  List.forall_mem_singleton.2 he

theorem Plain.cons {e : Event} {es : List Event} (he : e.plain = true) (hes : Plain es) :
    Plain (e :: es) := List.forall_mem_cons.2 ⟨he, hes⟩

theorem Plain.append {xs ys : List Event} (hx : Plain xs) (hy : Plain ys) : Plain (xs ++ ys) := by
  intro e he
  rcases List.mem_append.1 he with he | he
  · exact hx e he
  · exact hy e he

theorem plain_linkEvents (source target : LinkState) : Plain (linkEvents source target) := by
  unfold linkEvents
  split
  · exact .nil
  · exact .single rfl

theorem plain_tune (p : Policy) (tuning : Option Tuning) : Plain (tune p tuning) := by
  unfold tune
  split
  · exact .single rfl
  · refine .cons rfl ?_
    split
    · exact .single rfl
    · exact .nil

theorem plain_unregister (r : Registry) (key : SourceKey) :
    Plain ((r.unregister key).2.map .registry) := by
  unfold Registry.unregister
  split
  · exact .single rfl
  · exact .nil

theorem plain_stop (h : Hub) (w : Worker) : Plain (stop h w).events :=
  (plain_linkEvents _ _).append (.single rfl)

theorem plain_leave (h : Hub) (w : Worker) (reason : ReadExit) :
    Plain (leave h w reason).events := by
  have left := ((plain_unregister h.registry w.key).append
    (plain_linkEvents w.phase.link .disconnected)).append (.single (e := .exited reason) rfl)
  unfold leave
  dsimp only
  split
  · exact left.append (plain_stop _ _)
  · exact left

theorem plain_crash (h : Hub) (w : Worker) (reason : String) : Plain (crash h w reason).events := by
  unfold crash
  by_cases connected : w.isConnected = true
  · simpa [connected] using plain_unregister h.registry w.key
  · rw [if_neg connected]
    exact .nil

/-- What is observed when a dial starts. -/
theorem events_begin (h : Hub) (w : Worker) (going : h.stopping = false) :
    (begin h w).events = linkEvents w.phase.link .dialing ++ [.dialed] := by
  simp [begin, going]

end FeedCapture.Worker
