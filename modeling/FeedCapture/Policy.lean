import FeedCapture.Outage

/-!
# The capture policy

The timing and sizes that every worker obeys.

## Main definitions

* `Policy`, with its default values
* `Policy.check` — the policy is one that workers can obey, or the first reason why it is not
-/

namespace FeedCapture

/-- The timing and sizes shared by all workers. -/
structure Policy where
  /-- How many messages the bus holds. -/
  busCapacity : Nat := 1000
  /-- The pause after a failed dial. -/
  reconnectDelay : Duration := Duration.seconds 5
  /-- How long one read may take. -/
  readDeadline : Duration := Duration.seconds 2
  /-- The silence after which a connection is stale. -/
  idleTimeout : Duration := Duration.seconds 3
  /-- The period of keepalive probes. -/
  keepalivePeriod : Duration := Duration.seconds 2
  /-- Whether small packets are sent at once. -/
  nodelay : Bool := true
  /-- The most bytes that one read takes. -/
  readBufferSize : Nat := 1024
  /-- How outages are classified. -/
  outage : Outage.Thresholds := {}
deriving DecidableEq, Repr

namespace Policy

/-- Why no worker can obey a policy. -/
inductive Invalid where
  | emptyReadBuffer
  | noReadDeadline
  | thresholdsOutOfOrder (hiccupMin reestablishedAfter : Duration)
deriving DecidableEq, Repr

/-- The wording of each reason. -/
def Invalid.reason : Invalid → String
  | .emptyReadBuffer => "read buffer size must be non-zero"
  | .noReadDeadline => "read deadline must be non-zero"
  | .thresholdsOutOfOrder hiccupMin reestablishedAfter =>
    "hiccup threshold " ++ Duration.render hiccupMin ++ " must be below reestablished threshold " ++
      Duration.render reestablishedAfter

/-- The full message for each reason. -/
def Invalid.message (e : Invalid) : String := "Invalid capture policy: " ++ e.reason

/-- Accepts a policy with a read buffer, a read deadline and outage thresholds in order; otherwise
gives the first of these that is missing. -/
def check (p : Policy) : Except Invalid Unit :=
  if p.readBufferSize = 0 then .error .emptyReadBuffer
  else if p.readDeadline = 0 then .error .noReadDeadline
  else if p.outage.reestablishedAfter ≤ p.outage.hiccupMin then
    .error (.thresholdsOutOfOrder p.outage.hiccupMin p.outage.reestablishedAfter)
  else .ok ()

theorem check_eq_ok_iff (p : Policy) :
    p.check = .ok () ↔
      p.readBufferSize ≠ 0 ∧ p.readDeadline ≠ 0 ∧
        p.outage.hiccupMin < p.outage.reestablishedAfter := by
  unfold check
  split
  · simp_all
  · split
    · simp_all
    · split
      · simp_all
      · simp_all

end Policy

end FeedCapture
