import FeedCapture.Duration

/-!
# Outages

A source that was connected before and is not connected now is in an outage.  The outage starts
when the connection is lost and is not restarted by dials that fail during it.  When the source is
reached again, the length of the outage decides how the reconnect is reported.

## Main definitions

* `Outage.Thresholds`, `Outage.Thresholds.classify`
* `Reconnect` — what a successful dial means for the history of its source
* `OutageTracker`, with `OutageTracker.markDown` and `OutageTracker.markUp`
-/

namespace FeedCapture

/-- How a successful dial relates to the history of its source. -/
inductive Reconnect where
  /-- The first connection. -/
  | first
  /-- Back before the hiccup threshold. -/
  | quick (elapsed : Duration)
  /-- Back after a short outage. -/
  | hiccup (elapsed : Duration)
  /-- Back after a long outage. -/
  | reestablished (elapsed : Duration)
deriving DecidableEq, Repr

namespace Outage

/-- The boundaries between the three kinds of reconnect. -/
structure Thresholds where
  /-- The shortest outage that is a hiccup. -/
  hiccupMin : Duration := Duration.millis 100
  /-- The shortest outage after which a source counts as reestablished. -/
  reestablishedAfter : Duration := Duration.seconds 10
deriving DecidableEq, Repr

/-- The kind of a reconnect after an outage of the given length.  The longer threshold is looked at
first, so it wins when the two are in the wrong order. -/
def Thresholds.classify (t : Thresholds) (elapsed : Duration) : Reconnect :=
  if t.reestablishedAfter ≤ elapsed then .reestablished elapsed
  else if t.hiccupMin ≤ elapsed then .hiccup elapsed
  else .quick elapsed

end Outage

/-- Whether a source was ever connected, and since when it is gone. -/
structure OutageTracker where
  everConnected : Bool := false
  downSince : Option Instant := none
deriving DecidableEq, Repr

namespace OutageTracker

/-- Records the start of an outage, and says whether it did: only the first loss after a connection
counts. -/
def markDown (t : OutageTracker) (now : Instant) : OutageTracker × Bool :=
  if t.everConnected && t.downSince.isNone then ({ t with downSince := some now }, true)
  else (t, false)

/-- How long the recorded outage has lasted; zero without one or when it starts in the future. -/
def elapsed (t : OutageTracker) (now : Instant) : Duration :=
  match t.downSince with
  | some since => now - since
  | none => 0

/-- Ends the outage and tells what kind of reconnect this is. -/
def markUp (t : OutageTracker) (now : Instant) (thresholds : Outage.Thresholds) :
    OutageTracker × Reconnect :=
  if t.everConnected then
    ({ t with downSince := none }, thresholds.classify (t.elapsed now))
  else ({ everConnected := true, downSince := none }, .first)

@[simp] theorem everConnected_markDown (t : OutageTracker) (now : Instant) :
    (t.markDown now).1.everConnected = t.everConnected := by
  unfold markDown; split <;> rfl

@[simp] theorem everConnected_markUp (t : OutageTracker) (now : Instant) (th : Outage.Thresholds) :
    (t.markUp now th).1.everConnected = true := by
  unfold markUp; split
  · assumption
  · rfl

@[simp] theorem downSince_markUp (t : OutageTracker) (now : Instant) (th : Outage.Thresholds) :
    (t.markUp now th).1.downSince = none := by
  unfold markUp; split <;> rfl

end OutageTracker

end FeedCapture
