import FeedCapture.Outage

/-!
# Using an outage tracker

Losses and connections are noted one after the other.  The instants need not increase, and each
connection brings the thresholds by which it is classified.

## Main definitions

* `OutageTracker.Call`, `OutageTracker.Answer`
* `OutageTracker.call`, `OutageTracker.run` — what comes of a call, and of several in order
-/

namespace FeedCapture.OutageTracker

/-- Something that a tracker is told. -/
inductive Call where
  /-- The source is gone. -/
  | down (now : Instant)
  /-- The source is reached. -/
  | up (now : Instant) (thresholds : Outage.Thresholds)
deriving DecidableEq, Repr

/-- What a tracker says to a call. -/
inductive Answer where
  /-- Whether an outage starts with the loss. -/
  | starts (new : Bool)
  /-- What kind of reconnect it is. -/
  | reconnect (kind : Reconnect)
deriving DecidableEq, Repr

/-- What comes of a call. -/
def call (t : OutageTracker) : Call → OutageTracker × Answer
  | .down now => ((t.markDown now).1, .starts (t.markDown now).2)
  | .up now thresholds =>
    ((t.markUp now thresholds).1, .reconnect (t.markUp now thresholds).2)

/-- What comes of calls in order, with the answer to each. -/
def run (t : OutageTracker) : List Call → OutageTracker × List Answer
  | [] => (t, [])
  | c :: calls =>
    let (later, answers) := run (t.call c).1 calls
    (later, (t.call c).2 :: answers)

@[simp] theorem run_nil (t : OutageTracker) : t.run [] = (t, []) := rfl

@[simp] theorem run_cons (t : OutageTracker) (c : Call) (calls : List Call) :
    t.run (c :: calls) =
      (((t.call c).1.run calls).1, (t.call c).2 :: ((t.call c).1.run calls).2) := rfl

/-- Calls can be made in two goes. -/
theorem run_append (t : OutageTracker) (calls others : List Call) :
    t.run (calls ++ others) =
      (((t.run calls).1.run others).1, (t.run calls).2 ++ ((t.run calls).1.run others).2) := by
  induction calls generalizing t with
  | nil => rfl
  | cons c calls ih => simp [ih]

/-- Every call is answered once. -/
@[simp] theorem length_answers (t : OutageTracker) (calls : List Call) :
    (t.run calls).2.length = calls.length := by
  induction calls generalizing t with
  | nil => rfl
  | cons c calls ih => simp [ih]

end FeedCapture.OutageTracker
