import FeedCapture.Duration
import FeedCapture.Entries
import FeedCapture.Message

/-!
# The network

What dials and connections can come to, and networks whose behaviour is planned: for every address
the outcomes of its dials in order, and for every connection what its peer does and when.  An
address whose plan is used up, or that has none, refuses every dial at once.

What a peer does is planned as reads find it.  A stream has no bounds between its bytes, and which of
them one read finds together is up to the network, so an act by which a peer sends bytes stands for
what one read finds, if its buffer has the room.  Where one read finds the bytes of two sends, the
plan has one act with the bytes of both, which is due when the second one is there.  Every way in
which the bytes of a stream can fall into reads is that of some plan, and the statements about a
network are about all of its plans.

## Main definitions

* `Transport.Failure` — why a dial or a read fails
* `Transport.Dial`, `Transport.Peer` — the outcome of a dial, and what a peer does
* `Network`, with `Network.dial`
* `Connection`, with `Connection.read?`
-/

namespace FeedCapture

namespace Transport

/-- The kinds of network failure. -/
inductive Kind where
  | connectionRefused
  | connectionReset
  | connectionAborted
  | timedOut
  | hostUnreachable
  | networkUnreachable
  | unexpectedEof
  | brokenPipe
  | unsupported
  | permissionDenied
  | notFound
  | other
deriving DecidableEq, Repr

/-- The usual wording of a kind of failure. -/
def Kind.message : Kind → String
  | .connectionRefused => "connection refused"
  | .connectionReset => "connection reset"
  | .connectionAborted => "connection aborted"
  | .timedOut => "timed out"
  | .hostUnreachable => "host unreachable"
  | .networkUnreachable => "network unreachable"
  | .unexpectedEof => "unexpected end of file"
  | .brokenPipe => "broken pipe"
  | .unsupported => "unsupported"
  | .permissionDenied => "permission denied"
  | .notFound => "entity not found"
  | .other => "other error"

/-- Why a dial, a read or a change of the connection's properties fails. -/
structure Failure where
  kind : Kind
  /-- A wording of its own, in the place of the usual one. -/
  detail : Option String := none
deriving DecidableEq, Repr

/-- The wording of a failure. -/
def Failure.message (e : Failure) : String := e.detail.getD e.kind.message

/-- What a peer does. -/
inductive Peer where
  | sends (data : Bytes)
  /-- Ends the stream. -/
  | ends
  /-- The connection fails. -/
  | fails (e : Failure)
  /-- Reading breaks down altogether, which ends the task that reads. -/
  | breaksDown (reason : String)
deriving DecidableEq, Repr

/-- What becomes of attempts to set the properties of a connection. -/
structure Tuning where
  /-- Why keepalive probes cannot be set. -/
  keepalive : Option Failure := none
  /-- Why sending at once cannot be set. -/
  nodelay : Option Failure := none
deriving DecidableEq, Repr

/-- The outcome of a dial. -/
inductive Outcome where
  | refused (e : Failure)
  /-- Dialing breaks down altogether, which ends the task that dials. -/
  | breaksDown (reason : String)
  /-- The connection is there.  Each act of the peer comes the given time after the one before it,
  the first one after the start of the connection.  Its properties can be set if there is a
  tuning. -/
  | connected (peer : List (Duration × Peer)) (tuning : Option Tuning)
deriving DecidableEq, Repr

/-- A dial: it takes a while and has an outcome, or it never ends. -/
inductive Dial where
  | hangs
  | settles (delay : Duration) (outcome : Outcome)
deriving DecidableEq, Repr

/-- The dial of an address that has no plan. -/
def Dial.refusedAtOnce : Dial := .settles 0 (.refused { kind := .connectionRefused })

end Transport

open Transport

/-! ## Networks -/

/-- The dials that are still to come, for every address. -/
structure Network where
  plans : List (String × List Dial) := []
deriving DecidableEq, Repr

namespace Network

/-- The dials that are still to come for an address. -/
def plan (n : Network) (addr : String) : List Dial := (n.plans.lookup addr).getD []

/-- Puts the dials to come of an address. -/
def setPlan (n : Network) (addr : String) (dials : List Dial) : Network :=
  ⟨(addr, dials) :: n.plans.filter fun p => p.1 ≠ addr⟩

/-- Takes the next dial of an address. -/
def dial (n : Network) (addr : String) : Dial × Network :=
  match n.plan addr with
  | [] => (.refusedAtOnce, n)
  | next :: rest => (next, n.setPlan addr rest)

variable (n : Network) (addr : String)

theorem plan_setPlan_self (dials : List Dial) : (n.setPlan addr dials).plan addr = dials := by
  simp [plan, setPlan]

theorem plan_setPlan_of_ne {other : String} (hne : other ≠ addr) (dials : List Dial) :
    (n.setPlan addr dials).plan other = n.plan other := by
  have h : (other == addr) = false := by simpa using hne
  simp only [plan, setPlan, List.lookup_cons, h, Entries.lookup_filter_of_ne hne]

/-- A dial comes to what is planned for its address. -/
theorem dial_fst : (n.dial addr).1 = (n.plan addr).head?.getD .refusedAtOnce := by
  unfold dial
  cases n.plan addr <;> rfl

theorem plan_dial_self : (n.dial addr).2.plan addr = (n.plan addr).tail := by
  unfold dial
  cases planned : n.plan addr with
  | nil => exact planned
  | cons next rest => exact plan_setPlan_self ..

theorem plan_dial_of_ne {other : String} (hne : other ≠ addr) :
    (n.dial addr).2.plan other = n.plan other := by
  unfold dial
  cases n.plan addr with
  | nil => rfl
  | cons next rest => exact plan_setPlan_of_ne _ _ hne _

end Network

/-! ## Connections -/

/-- A connection: what its peer still does, and when. -/
structure Connection where
  incoming : List (Instant × Peer) := []
deriving DecidableEq, Repr

/-- What a read comes to. -/
inductive Connection.ReadResult where
  | data (bytes : Bytes)
  | ended
  | failed (e : Failure)
  | brokeDown (reason : String)
deriving DecidableEq, Repr

namespace Connection

/-- The instants at which a peer acts that starts at `start`. -/
def schedule (start : Instant) : List (Duration × Peer) → List (Instant × Peer)
  | [] => []
  | (after, act) :: rest => (start + after, act) :: schedule (start + after) rest

/-- A connection that starts now. -/
def opened (now : Instant) (peer : List (Duration × Peer)) : Connection := ⟨schedule now peer⟩

/-- When there is something to read, if ever. -/
def nextAt (c : Connection) : Option Instant := c.incoming.head?.map Prod.fst

/-- Reads into a buffer with room for some bytes, if there is something to read now.  An act of the
peer is what one read finds, so a read never goes on to the next act; what does not fit is left for
the next read.  A read without bytes is the end of the stream. -/
def read? (c : Connection) (now : Instant) (room : Nat) : Option (ReadResult × Connection) :=
  match c.incoming with
  | [] => none
  | (due, act) :: rest =>
    if now < due then none
    else
      match act with
      | .sends data =>
        let taken := data.take room
        if taken.isEmpty then some (.ended, ⟨rest⟩)
        else if data.length ≤ room then some (.data taken, ⟨rest⟩)
        else some (.data taken, ⟨(due, .sends (data.drop room)) :: rest⟩)
      | .ends => some (.ended, ⟨rest⟩)
      | .fails e => some (.failed e, ⟨rest⟩)
      | .breaksDown reason => some (.brokeDown reason, ⟨rest⟩)

/-- There is nothing to read until the peer acts. -/
theorem read?_eq_none_iff (c : Connection) (now : Instant) (room : Nat) :
    c.read? now room = none ↔ ∀ due, c.nextAt = some due → now < due := by
  obtain ⟨_ | ⟨⟨due, act⟩, rest⟩⟩ := c
  · simp [read?, nextAt]
  · simp only [read?, nextAt, List.head?_cons, Option.map_some, Option.some.injEq, forall_eq']
    split
    · next early => simp [early]
    · next late =>
      simp only [late, iff_false]
      split
      · split
        · simp
        · split <;> simp
      all_goals simp

end Connection

end FeedCapture
