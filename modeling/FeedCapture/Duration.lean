/-!
# Durations and instants

Spans of time are whole numbers of nanoseconds, and points in time are the span since a fixed
start.  Both are natural numbers, so arithmetic on them is that of `Nat`: a difference that would
be negative is zero, which is the rule for an outage that seems to end before it began.

## Main definitions

* `Duration`, `Instant`
* `Duration.render` — the text of a span in its largest unit with a non-zero whole part
-/

namespace FeedCapture

/-- A span of time in nanoseconds. -/
abbrev Duration := Nat

/-- A point in time: the span since the start of the clock. -/
abbrev Instant := Nat

namespace Duration

/-- `n` milliseconds. -/
def millis (n : Nat) : Duration := n * 1000000

/-- `n` seconds. -/
def seconds (n : Nat) : Duration := n * 1000000000

/-- Whole milliseconds in the span, rounded down. -/
def toMillis (d : Duration) : Nat := d / 1000000

@[simp] theorem toMillis_millis (n : Nat) : toMillis (millis n) = n := by
  simp [toMillis, millis]

/-- The last `width` decimal digits of `n`, zeros in front included. -/
def paddedDigits : Nat → Nat → List Char
  | 0, _ => []
  | width + 1, n => paddedDigits width (n / 10) ++ [Nat.digitChar (n % 10)]

@[simp] theorem length_paddedDigits (width n : Nat) : (paddedDigits width n).length = width := by
  induction width generalizing n with
  | zero => rfl
  | succ w ih => simp [paddedDigits, ih]

/-- Drops the zeros at the end. -/
def withoutTrailingZeros (digits : List Char) : List Char :=
  (digits.reverse.dropWhile (fun c => c = '0')).reverse

/-- A number with the fraction `part / 10 ^ width`: the whole part, then the fraction without its
trailing zeros, and no point when nothing is left of it. -/
def decimal (whole part width : Nat) : String :=
  match withoutTrailingZeros (paddedDigits width part) with
  | [] => Nat.repr whole
  | digits => Nat.repr whole ++ "." ++ String.ofList digits

/-- The span in its largest unit with a non-zero whole part among seconds, milli-, micro- and
nanoseconds, with an exact fraction: `5s`, `1.5ms`, `0ns`. -/
def render (d : Duration) : String :=
  if 1000000000 ≤ d then decimal (d / 1000000000) (d % 1000000000) 9 ++ "s"
  else if 1000000 ≤ d then decimal (d / 1000000) (d % 1000000) 6 ++ "ms"
  else if 1000 ≤ d then decimal (d / 1000) (d % 1000) 3 ++ "µs"
  else Nat.repr d ++ "ns"

end Duration

end FeedCapture
