import FeedCapture.Proofs.Worker.Carrying
import Mathlib.Algebra.Ring.Int.Defs

/-!
# What is counted

The counters can be read off what the workers do: a failed dial, a new connection, a message on the
bus and the end of reading from a connection are counted under the address of the worker, each where
it happens, and nothing else is.  A connection whose read breaks down is not counted down.

## Main definitions

* `Worker.Event.count` — what an event adds to the counters
* `Worker.meter` — the counters after several events
* `Metrics.ofSource` — the counters of one source

The main statements are `metrics_of_transition`, `open_of_transition` and `activeConnections_count`.
-/

namespace FeedCapture

/-- The counters of one source. -/
structure SourceCounters where
  messages : Nat
  bytes : Nat
  connects : Nat
  disconnects : Nat
  dialFailures : Nat
deriving DecidableEq

/-- The counters under the label of a source. -/
def Metrics.ofSource (m : Metrics) (source : String) : SourceCounters where
  messages := m.messages.get source
  bytes := m.bytes.get source
  connects := m.connects.get source
  disconnects := m.disconnects.get source
  dialFailures := m.dialFailures.get source

namespace Worker

open Transport

/-- What an event of a worker adds to the counters. -/
def Event.count (addr : String) (m : Metrics) : Event → Metrics
  | .dialFailed _ _ _ => m.recordDialFailure addr
  | .connected _ => m.recordConnect addr
  | .delivered message => m.recordMessage addr message.data.length
  | .exited _ => m.recordDisconnect addr
  | _ => m

/-- The counters after several events of a worker. -/
def meter (addr : String) (m : Metrics) (es : List Event) : Metrics :=
  es.foldl (Event.count addr) m

variable {h : Hub} {w : Worker} {s : Step} (addr : String) (m : Metrics)

@[simp] theorem meter_nil : meter addr m [] = m := rfl

@[simp] theorem meter_cons (e : Event) (es : List Event) :
    meter addr m (e :: es) = meter addr (e.count addr m) es := rfl

@[simp] theorem meter_append (xs ys : List Event) :
    meter addr m (xs ++ ys) = meter addr (meter addr m xs) ys :=
  List.foldl_append ..

@[simp] theorem meter_linkEvents (source target : LinkState) :
    meter addr m (linkEvents source target) = m := by
  unfold linkEvents
  split <;> rfl

@[simp] theorem meter_notices (notices : List Registry.Notice) :
    meter addr m (notices.map .registry) = m := by
  induction notices with
  | nil => rfl
  | cons notice notices ih => exact ih

@[simp] theorem meter_tune (p : Policy) (tuning : Option Tuning) :
    meter addr m (tune p tuning) = m := by
  unfold tune
  split
  · rfl
  · split <;> rfl

@[simp] theorem meter_stop (h : Hub) (w : Worker) : meter addr m (stop h w).events = m := by
  simp [stop, Event.count]

theorem meter_leave (h : Hub) (w : Worker) (reason : ReadExit) :
    meter addr m (leave h w reason).events = m.recordDisconnect addr := by
  unfold leave
  dsimp only
  split <;> simp [Event.count]

/-- A step is as it is counted: where events are counted, the counters are those of its events. -/
def Metered (h : Hub) (w : Worker) (s : Step) : Prop :=
  s.hub.metrics = if h.counting then meter w.key.addr h.metrics s.events else h.metrics

theorem metrics_count (h : Hub) (f : Metrics → Metrics) :
    (h.count f).metrics = if h.counting then f h.metrics else h.metrics := by
  unfold Hub.count
  split <;> rfl

theorem metered_leave (h : Hub) (w : Worker) (bus : Bus Nat) (reason : ReadExit) :
    Metered h w (leave { h with bus } w reason) := by
  rw [Metered, meter_leave]
  unfold leave
  dsimp only
  split <;> exact metrics_count _ _

theorem Metered.after {e : Event} (metered : Metered h w s)
    (same : ∀ m, e.count w.key.addr m = m) : Metered h w (s.after e) := by
  rw [Metered, events_after, meter_cons, same]
  exact metered

/-- Every step is as it is counted. -/
theorem metrics_of_transition (step : Transition h w s) : Metered h w s := by
  have delivered : ∀ (bus : Bus Nat) (link : Link) (m : Message),
      Metered h w (Worker.delivered { h with bus } w link m) := fun bus link m =>
    metrics_count _ _
  cases step with
  | halt idle stopping => simp [Metered]
  | dial phase going =>
    rw [Metered, hub_begin h w going]
    simp [begin, going, Event.count]
  | refused phase going passed =>
    refine Metered.after ?_ fun _ => rfl
    rw [Metered]
    simp [failDial, metrics_count, Event.count]
  | dialBroke phase going passed =>
    refine Metered.after ?_ fun _ => rfl
    simp [Metered, crash]
  | connected phase going passed =>
    refine Metered.after ?_ fun _ => rfl
    rw [Metered]
    simp [connect, metrics_count, Event.count]
  | retry phase going passed => simp [Metered]
  | closed phase close => exact metered_leave h w h.bus _
  | eof phase going read => exact (metered_leave h w h.bus _).after fun _ => rfl
  | failed phase going read => exact (metered_leave h w h.bus _).after fun _ => rfl
  | readBroke phase going read =>
    refine Metered.after ?_ fun _ => rfl
    simp [Metered, crash]
  | queued phase going read offer => exact (delivered _ _ _).after fun _ => rfl
  | parked phase going read offer => simp [Metered, Event.count]
  | unwanted phase going read offer =>
    exact ((metered_leave h w h.bus _).after fun _ => rfl).after fun _ => rfl
  | idle phase going read passed stale => exact metered_leave h w h.bus _
  | silent phase going read passed fresh => simp [Metered, Event.count]
  | givenUp phase close => exact (metered_leave h w _ _).after fun _ => rfl
  | abandoned phase going claim => exact (metered_leave h w _ _).after fun _ => rfl
  | handedOver phase going claim => exact delivered _ _ _

/-! ## The counters of one source -/

/-- An event of one source does not change the counters of another one. -/
theorem ofSource_count_of_ne (e : Event) {other : String} (hne : other ≠ addr) :
    (e.count addr m).ofSource other = m.ofSource other := by
  cases e <;> simp [Event.count, Metrics.ofSource, Metrics.recordDialFailure,
    Metrics.recordConnect, Metrics.recordMessage, Metrics.recordDisconnect,
    Series.get_add_of_ne _ _ hne]

/-- An event changes the counters of its source by themselves. -/
theorem ofSource_count_congr (e : Event) {m m' : Metrics}
    (same : m.ofSource addr = m'.ofSource addr) :
    (e.count addr m).ofSource addr = (e.count addr m').ofSource addr := by
  simp only [Metrics.ofSource, SourceCounters.mk.injEq] at same
  obtain ⟨messages, bytes, connects, disconnects, dialFailures⟩ := same
  cases e <;> simp [Event.count, Metrics.ofSource, Metrics.recordDialFailure,
    Metrics.recordConnect, Metrics.recordMessage, Metrics.recordDisconnect, messages, bytes,
    connects, disconnects, dialFailures]

/-! ## Open connections -/

/-- A read broke down. -/
def Event.breaksRead : Event → Bool
  | .read (.brokeDown _) => true
  | _ => false

/-- How an event changes the number of connections. -/
def Event.net : Event → Int
  | .connected _ => 1
  | .exited _ => -1
  | .read (.brokeDown _) => -1
  | _ => 0

/-- How several events change the number of connections. -/
def net (es : List Event) : Int := (es.map Event.net).sum

/-- The number of connections that a worker has, which is one or none. -/
def Phase.openCount : Phase → Int
  | .reading _ _ => 1
  | .delivering _ _ => 1
  | _ => 0

@[simp] theorem net_nil : net [] = 0 := rfl

@[simp] theorem net_cons (e : Event) (es : List Event) : net (e :: es) = e.net + net es := by
  simp [net]

@[simp] theorem net_append (xs ys : List Event) : net (xs ++ ys) = net xs + net ys := by
  simp [net]

@[simp] theorem net_linkEvents (source target : LinkState) :
    net (linkEvents source target) = 0 := by
  unfold linkEvents
  split <;> rfl

@[simp] theorem net_notices (notices : List Registry.Notice) :
    net (notices.map .registry) = 0 := by
  induction notices with
  | nil => rfl
  | cons notice notices ih => simpa [Event.net] using ih

@[simp] theorem net_tune (p : Policy) (tuning : Option Tuning) : net (tune p tuning) = 0 := by
  unfold tune
  split
  · rfl
  · split <;> simp [Event.net]

@[simp] theorem net_stop (h : Hub) (w : Worker) : net (stop h w).events = 0 := by
  simp [stop, Event.net]

@[simp] theorem net_leave (h : Hub) (w : Worker) (reason : ReadExit) :
    net (leave h w reason).events = -1 := by
  unfold leave
  dsimp only
  split <;> simp [Event.net]

theorem openCount_of_shut {phase : Phase} (shut : phase.open? = none) : phase.openCount = 0 := by
  cases phase <;> first | rfl | cases shut

/-- A worker has as many connections as its events tell. -/
theorem open_of_transition (step : Transition h w s) :
    s.worker.phase.openCount = w.phase.openCount + net s.events := by
  have left : ∀ (h : Hub) (reason : ReadExit), w.phase.openCount = 1 →
      (leave h w reason).worker.phase.openCount =
        w.phase.openCount + net (leave h w reason).events := by
    intro h reason held
    rw [openCount_of_shut (open?_leave h w reason), held, net_leave]
    rfl
  cases step with
  | halt idle stopping =>
    rcases idle with phase | ⟨due, outcome, phase⟩ | ⟨until_, phase⟩ <;>
      simp [phase, Phase.openCount]
  | dial phase going =>
    rw [openCount_of_shut (open?_begin h w), phase]
    simp [begin, going, Phase.openCount, Event.net]
  | refused phase going passed => simp [phase, failDial, Phase.openCount, Event.net]
  | dialBroke phase going passed => simp [phase, crash, Phase.openCount, Event.net]
  | connected phase going passed =>
    rw [worker_after, phase_connect, phase]
    simp [connect, Phase.openCount, Event.net]
  | retry phase going passed => simp [phase, Phase.openCount]
  | closed phase close => exact left _ _ (by rw [phase]; rfl)
  | eof phase going read =>
    simpa [Event.net] using left _ _ (by rw [phase]; rfl)
  | failed phase going read =>
    simpa [Event.net] using left _ _ (by rw [phase]; rfl)
  | readBroke phase going read => simp [phase, crash, Phase.openCount, Event.net]
  | queued phase going read offer => simp [phase, delivered, readOn, Phase.openCount, Event.net]
  | parked phase going read offer => simp [phase, Phase.openCount, Event.net]
  | unwanted phase going read offer =>
    simpa [Event.net] using left _ _ (by rw [phase]; rfl)
  | idle phase going read passed stale => exact left _ _ (by rw [phase]; rfl)
  | silent phase going read passed fresh => simp [phase, readOn, Phase.openCount, Event.net]
  | givenUp phase close =>
    simpa [Event.net] using left _ _ (by rw [phase]; rfl)
  | abandoned phase going claim =>
    simpa [Event.net] using left _ _ (by rw [phase]; rfl)
  | handedOver phase going claim => simp [phase, delivered, readOn, Phase.openCount, Event.net]

/-- The counter of open connections goes up and down with the connections, but it is not counted
down when a read breaks down. -/
theorem activeConnections_count (e : Event) :
    (e.count addr m).activeConnections =
      m.activeConnections + e.net + if e.breaksRead then 1 else 0 := by
  cases e with
  | read result =>
    cases result with
    | brokeDown reason =>
      simp only [Event.count, Event.net, Event.breaksRead, if_true]
      omega
    | _ => simp [Event.count, Event.net, Event.breaksRead]
  | _ => simp [Event.count, Event.net, Event.breaksRead, Metrics.recordDialFailure,
      Metrics.recordConnect, Metrics.recordMessage, Metrics.recordDisconnect, Int.sub_eq_add_neg]

end Worker

end FeedCapture
