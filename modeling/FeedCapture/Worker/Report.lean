import FeedCapture.Log
import FeedCapture.Number.Binary64
import FeedCapture.Worker

/-!
# What workers report

The log entry of each observable event of a worker.  Some events have none.

## Main definitions

* `Worker.Event.report?`
-/

namespace FeedCapture

open Log

/-- The name of a link state. -/
def LinkState.name : LinkState → String
  | .disconnected => "Disconnected"
  | .dialing => "Dialing"
  | .connected => "Connected"
  | .stopped => "Stopped"

/-- A span of time in seconds, as a double. -/
def Duration.inSeconds (d : Duration) : Dyadic :=
  (Dyadic.ofNat (d / 1000000000)).add ((Dyadic.ofNat (d % 1000000000)).divNat 1000000000)

/-- A span of time in minutes, as a double. -/
def Duration.inMinutes (d : Duration) : Dyadic := (Duration.inSeconds d).divNat 60

/-- A field with a span of time in whole milliseconds. -/
def Log.millisField (name : String) (d : Duration) : String × Value :=
  (name, .number (Duration.toMillis d))

/-- The entry for a connection, by the history of its source. -/
def Reconnect.report : Reconnect → Entry
  | .first => ⟨.info, "connected", []⟩
  | .quick e => ⟨.debug, "reconnected", [millisField "elapsed_ms" e]⟩
  | .hiccup e =>
    ⟨.info, "brief hiccup of " ++ (Duration.inSeconds e).fixed 2 ++ " seconds",
      [millisField "elapsed_ms" e]⟩
  | .reestablished e =>
    ⟨.info, "reestablished after " ++ (Duration.inMinutes e).fixed 2 ++ " minutes",
      [millisField "elapsed_ms" e]⟩

/-- The entry for the end of a connection. -/
def ReadExit.report : ReadExit → Entry
  | .idle silent => ⟨.info, "connection idle, reconnecting", [millisField "silent_ms" silent]⟩
  | .eof => ⟨.info, "source closed the connection", []⟩
  | .failed e => ⟨.warn, "read failed, reconnecting", [("error", .text e.message)]⟩
  | .closed => ⟨.debug, "connection closed for shutdown", []⟩
  | .busClosed => ⟨.warn, "message bus has no consumer, worker exiting", []⟩

/-- The entry for a dial that failed: the first one in a row matters more than the others. -/
def Worker.dialFailedReport (e : Transport.Failure) (attempt : UInt64) (retryIn : Duration) :
    Entry :=
  let error := ("error", Value.text e.message)
  let retry := ("retry_in", Value.text (Duration.render retryIn))
  if attempt = 1 then ⟨.warn, "dial failed, retrying", [error, retry]⟩
  else ⟨.debug, "dial failed, retrying", [error, ("attempt", .number attempt.toNat), retry]⟩

/-- The entry for a property that could not be set. -/
def Worker.tuningReport (source message : String) (e : Transport.Failure) : Entry :=
  ⟨.debug, message, [("source", .text source), ("error", .text e.message)]⟩

/-- The log entry of an event of the worker for `source`. -/
def Worker.Event.report? (source : String) : Worker.Event → Option Entry
  | .dialed => none
  | .dialEnded _ => none
  | .link before after =>
    some ⟨.trace, "link state", [("from", .text before.name), ("to", .text after.name)]⟩
  | .untunable => some ⟨.trace, "transport has no tuning controls", [("source", .text source)]⟩
  | .keepaliveSet _ failure =>
    failure.map (Worker.tuningReport source "failed to enable TCP keepalive")
  | .nodelaySet failure => failure.map (Worker.tuningReport source "failed to set TCP_NODELAY")
  | .dialFailed e attempt retryIn => some (Worker.dialFailedReport e attempt retryIn)
  | .connected r => some r.report
  | .registry notice => some notice.entry
  | .silent elapsed => some ⟨.trace, "read deadline passed", [millisField "silent_ms" elapsed]⟩
  | .read _ => none
  | .delivered _ => none
  | .undelivered _ _ => none
  | .exited reason => some reason.report
  | .stopped => some ⟨.debug, "source worker stopped", []⟩

end FeedCapture
