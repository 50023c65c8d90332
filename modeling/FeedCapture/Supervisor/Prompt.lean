import FeedCapture.Supervisor.Run

/-!
# Runs in which nobody is kept waiting

Runs of a supervisor in which every message is received at the instant at which it is queued, and
the workers are told to stop only when all of them wait.

## Main definitions

* `Supervision.settled` — everybody waits
* `Supervision.runPromptly?` — what comes of several acts in order, if nobody is kept waiting
* `Supervisor.startedAt?`, `Supervisor.signalledAt?` — when the workers were started, and when they
  were told to stop
-/

namespace FeedCapture

namespace Supervisor

/-- The workers are started. -/
def Event.isStart : Event → Bool
  | .started _ => true
  | _ => false

/-- The workers are told to stop. -/
def Event.isSignal : Event → Bool
  | .forceClosed _ => true
  | _ => false

/-- When something was done last. -/
def doneAt? (s : Supervisor) (what : Event → Bool) : Option Instant :=
  (s.past.find? fun e => what e.2).map Prod.fst

/-- When the workers were started. -/
def startedAt? (s : Supervisor) : Option Instant := s.doneAt? Event.isStart

/-- When the workers were told to stop. -/
def signalledAt? (s : Supervisor) : Option Instant := s.doneAt? Event.isSignal

/-- What is noted last was done just now. -/
theorem doneAt?_note (s : Supervisor) (e : Event) (what : Event → Bool) :
    (s.note e).doneAt? what = if what e then some s.fleet.hub.now else s.doneAt? what := by
  cases h : what e <;> simp [doneAt?, note, h]

end Supervisor

namespace Supervision

/-- Everybody waits: no worker can go on, and no message is queued. -/
def settled (s : Supervision) : Bool :=
  !s.supervisor.fleet.canStep && s.supervisor.fleet.hub.bus.queue.isEmpty

/-- The act keeps nobody waiting: the clock moves on when no message is queued, and the first call
of stop signals the workers when everybody waits. -/
def isPrompt (s : Supervision) : Act → Bool
  | .pass _ => s.supervisor.fleet.hub.bus.queue.isEmpty
  | .poll n => s.supervisor.stopped || s.calls[n]? != some .fresh || s.settled
  | _ => true

/-- What comes of acts in order, if all of them are possible and keep nobody waiting. -/
def runPromptly? (s : Supervision) : List Act → Option Supervision
  | [] => some s
  | a :: rest => if s.isPrompt a then (s.act? a).bind fun s => s.runPromptly? rest else none

/-- What comes of acts that keep nobody waiting is what comes of them anyway. -/
theorem run?_of_runPromptly? {s t : Supervision} {acts : List Act}
    (h : s.runPromptly? acts = some t) : s.run? acts = some t := by
  induction acts generalizing s with
  | nil => exact h
  | cons a acts ih =>
    simp only [runPromptly?, Option.ite_none_right_eq_some] at h
    obtain ⟨s', hs, ran⟩ := Option.bind_eq_some_iff.1 h.2
    exact Option.bind_eq_some_iff.2 ⟨s', hs, ih ran⟩

end Supervision

end FeedCapture
