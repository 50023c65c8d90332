import FeedCapture.Entries

/-!
# Capture counters

Counters that are kept for every source address, and the number of connections that are open.
Workers with equal addresses count into the same series.  Counters are words of 64 bits.

## Main definitions

* `Series` — one counter for every label
* `Metrics`, with one operation for every event that is counted
-/

namespace FeedCapture

/-- A counter for every label that was ever used. -/
structure Series where
  counts : List (String × Nat) := []
deriving DecidableEq, Repr

namespace Series

/-- The counter of a label; zero if it was never used. -/
def get (s : Series) (label : String) : Nat := (s.counts.lookup label).getD 0

/-- Adds to the counter of a label, which wraps around after 64 bits. -/
def add (s : Series) (label : String) (n : Nat) : Series :=
  ⟨(label, (s.get label + n) % UInt64.size) :: s.counts.filter (fun p => p.1 ≠ label)⟩

/-- Makes the series of a label if it is new. -/
def touch (s : Series) (label : String) : Series := s.add label 0

/-- The labels and their counters, in the order of the labels. -/
def sorted (s : Series) : List (String × Nat) := s.counts.mergeSort (fun a b => a.1 ≤ b.1)

@[simp] theorem get_add_self (s : Series) (label : String) (n : Nat) :
    (s.add label n).get label = (s.get label + n) % UInt64.size := by
  simp [add, get]

theorem get_add_of_ne (s : Series) {label other : String} (n : Nat) (hne : other ≠ label) :
    (s.add label n).get other = s.get other := by
  have h : (other == label) = false := by simpa using hne
  simp only [get, add, List.lookup_cons, h, Entries.lookup_filter_of_ne hne]

end Series

/-- Everything that is counted. -/
structure Metrics where
  messages : Series := {}
  bytes : Series := {}
  connects : Series := {}
  disconnects : Series := {}
  dialFailures : Series := {}
  activeConnections : Int := 0
deriving DecidableEq, Repr

namespace Metrics

/-- A message of `length` bytes from `source` is on the bus. -/
def recordMessage (m : Metrics) (source : String) (length : Nat) : Metrics :=
  { m with messages := m.messages.add source 1, bytes := m.bytes.add source length }

/-- A connection to `source` is open. -/
def recordConnect (m : Metrics) (source : String) : Metrics :=
  { m with connects := m.connects.add source 1, activeConnections := m.activeConnections + 1 }

/-- A connection to `source` is over. -/
def recordDisconnect (m : Metrics) (source : String) : Metrics :=
  { m with
    disconnects := m.disconnects.add source 1
    activeConnections := m.activeConnections - 1 }

/-- A dial of `source` failed. -/
def recordDialFailure (m : Metrics) (source : String) : Metrics :=
  { m with dialFailures := m.dialFailures.add source 1 }

/-- The number of messages of `source`; asking for it makes the series. -/
def messagesFor (m : Metrics) (source : String) : Metrics × Nat :=
  ({ m with messages := m.messages.touch source }, m.messages.get source)

end Metrics

end FeedCapture
