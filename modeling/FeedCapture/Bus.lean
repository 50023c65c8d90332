import FeedCapture.Message

/-!
# The message bus

A bounded queue that many deliveries feed and one receiver empties.  A delivery that finds no room
waits in line.  A place that becomes free belongs to the first delivery in line from that moment,
although the delivery uses it only when it runs next; until then nobody else can take it.  So no
delivery is overtaken, neither by one behind it nor by a new one.

## Main definitions

* `Bus` — the queue, the places handed over and the line, with the waiting deliveries named by `ι`
* `Bus.offer`, `Bus.park`, `Bus.claim`, `Bus.leave` — the sending side
* `Bus.take?`, `Bus.dropReceiver` — the receiving side
* `Bus.Tidy` — no place is used twice, and nobody waits while a place is free
-/

namespace FeedCapture

/-- How a delivery ends. -/
inductive Delivery where
  /-- The message is queued. -/
  | delivered
  /-- The stop signal came while the delivery was waiting for room. -/
  | stopped
  /-- Nobody can receive any more. -/
  | closed
deriving DecidableEq, Repr

/-- A bounded queue of messages and the deliveries that wait for room in it. -/
structure Bus (ι : Type) where
  /-- The most messages that can be queued. -/
  capacity : Nat
  /-- The messages that are queued, oldest first. -/
  queue : List Message := []
  /-- The deliveries that own a free place and have not used it yet. -/
  granted : List ι := []
  /-- The deliveries that wait for a place, first come first. -/
  parked : List ι := []
  /-- The bus still has its own sender. -/
  ownSender : Bool := true
  /-- Somebody can still receive. -/
  receiving : Bool := true
deriving DecidableEq, Repr

namespace Bus

/-- The capacity of a bus when none is given. -/
def defaultCapacity : Nat := 1000

/-- The largest capacity that a bus can be built with. -/
def maxCapacity : Nat := (UInt64.size - 1) >>> 3

/-- Why no bus can be built with a capacity. -/
inductive InvalidCapacity where
  | zero
  /-- More places than can be counted; building the bus breaks down. -/
  | tooLarge
deriving DecidableEq, Repr

/-- The wording of each reason. -/
def InvalidCapacity.message : InvalidCapacity → String
  | .zero => "Invalid bus capacity 0 (must be at least 1)"
  | .tooLarge =>
    "a semaphore may not have more than MAX_PERMITS permits (" ++ Nat.repr maxCapacity ++ ")"

/-- The wording when a sender is asked of a closed bus. -/
def closedMessage : String := "Message bus is closed"

/-- An empty bus for at least one and at most `maxCapacity` messages. -/
def withCapacity (ι : Type) (capacity : Nat) : Except InvalidCapacity (Bus ι) :=
  if capacity = 0 then .error .zero
  else if maxCapacity < capacity then .error .tooLarge
  else .ok { capacity }

variable {ι : Type}

/-- The places that neither a message nor a delivery in line owns. -/
def free (b : Bus ι) : Nat := b.capacity - b.queue.length - b.granted.length

/-- The deliveries in line, those that own a place first. -/
def line (b : Bus ι) : List ι := b.granted ++ b.parked

/-- No place is used twice, and nobody waits while a place is free. -/
structure Tidy (b : Bus ι) : Prop where
  bounded : b.queue.length + b.granted.length ≤ b.capacity
  packed : b.parked ≠ [] → b.queue.length + b.granted.length = b.capacity

/-- What becomes of a message that is offered without waiting. -/
inductive Offer where
  | queued
  | full
  | closed
deriving DecidableEq, Repr

/-- Queues a message if there is a free place. -/
def offer (b : Bus ι) (m : Message) : Bus ι × Offer :=
  if !b.receiving then (b, .closed)
  else if b.free = 0 then (b, .full)
  else ({ b with queue := b.queue ++ [m] }, .queued)

/-- Puts a delivery at the end of the line. -/
def park (b : Bus ι) (id : ι) : Bus ι := { b with parked := b.parked ++ [id] }

/-- Hands a place that has become free to the first delivery in line. -/
def passOn (b : Bus ι) : Bus ι :=
  match b.parked with
  | [] => b
  | id :: rest => { b with granted := b.granted ++ [id], parked := rest }

/-- Takes a delivery that gives up out of the line.  A place that it owned goes to the next one. -/
def leave [DecidableEq ι] (b : Bus ι) (id : ι) : Bus ι :=
  if id ∈ b.granted then passOn { b with granted := b.granted.erase id }
  else { b with parked := b.parked.erase id }

/-- What a waiting delivery finds when it runs: it puts its message into the place it owns, it is
told that nobody receives any more, or it goes on waiting. -/
def claim [DecidableEq ι] (b : Bus ι) (id : ι) (m : Message) : Bus ι × Option Delivery :=
  if !b.receiving then
    ({ b with granted := b.granted.erase id, parked := b.parked.erase id }, some .closed)
  else if id ∈ b.granted then
    ({ b with queue := b.queue ++ [m], granted := b.granted.erase id }, some .delivered)
  else (b, none)

/-- The oldest message, if one is queued.  Its place goes to the first delivery in line. -/
def take? (b : Bus ι) : Option (Message × Bus ι) :=
  match b.queue with
  | [] => none
  | m :: rest => some (m, passOn { b with queue := rest })

/-- Gives up the bus's own sender, and tells whether it still had it. -/
def close (b : Bus ι) : Bus ι × Bool := ({ b with ownSender := false }, b.ownSender)

/-- Nobody receives any more: what is queued is lost, and deliveries end as closed. -/
def dropReceiver (b : Bus ι) : Bus ι := { b with receiving := false, queue := [] }

/-! ## What the operations do to the queue -/

@[simp] theorem queue_passOn (b : Bus ι) : b.passOn.queue = b.queue := by
  unfold passOn; split <;> rfl

@[simp] theorem queue_park (b : Bus ι) (id : ι) : (b.park id).queue = b.queue := rfl

@[simp] theorem queue_leave [DecidableEq ι] (b : Bus ι) (id : ι) :
    (b.leave id).queue = b.queue := by
  unfold leave; split <;> simp

/-- A message is queued when somebody receives and a place is free. -/
theorem offer_eq_queued {b b' : Bus ι} {m : Message} (h : b.offer m = (b', .queued)) :
    b.receiving = true ∧ b.free ≠ 0 ∧ b' = { b with queue := b.queue ++ [m] } := by
  unfold offer at h
  split at h
  · cases h
  · next hr =>
    split at h
    · cases h
    · next hf => cases h; exact ⟨by simpa using hr, hf, rfl⟩

theorem offer_eq_full {b b' : Bus ι} {m : Message} (h : b.offer m = (b', .full)) :
    b.receiving = true ∧ b.free = 0 ∧ b' = b := by
  unfold offer at h
  split at h
  · cases h
  · next hr =>
    split at h
    · next hf => cases h; exact ⟨by simpa using hr, hf, rfl⟩
    · cases h

theorem offer_eq_closed {b b' : Bus ι} {m : Message} (h : b.offer m = (b', .closed)) :
    b.receiving = false ∧ b' = b := by
  unfold offer at h
  split at h
  · next hr => cases h; exact ⟨by simpa using hr, rfl⟩
  · split at h <;> cases h

theorem queue_claim [DecidableEq ι] (b : Bus ι) (id : ι) (m : Message) :
    (b.claim id m).1.queue =
      if (b.claim id m).2 = some .delivered then b.queue ++ [m] else b.queue := by
  unfold claim; split
  · simp
  · split <;> simp

/-- A message is queued from the line only while somebody receives. -/
theorem receiving_of_claim_eq_delivered [DecidableEq ι] {b b' : Bus ι} {id : ι} {m : Message}
    (h : b.claim id m = (b', some .delivered)) : b.receiving = true := by
  unfold claim at h
  split at h
  · cases h
  · next hr => simpa using hr

/-- Nobody is turned away while somebody receives. -/
theorem claim_ne_closed [DecidableEq ι] {b : Bus ι} (alive : b.receiving = true) (id : ι)
    (m : Message) : (b.claim id m).2 ≠ some .closed := by
  simp only [claim, alive, Bool.not_true, Bool.false_eq_true, if_false]
  split <;> simp

theorem queue_of_take? {b b' : Bus ι} {m : Message} (h : b.take? = some (m, b')) :
    b.queue = m :: b'.queue := by
  unfold take? at h
  split at h
  · cases h
  · next m' rest hq =>
    simp only [Option.some.injEq, Prod.mk.injEq] at h
    obtain ⟨rfl, rfl⟩ := h
    simp [hq]

theorem take?_eq_none_iff {b : Bus ι} : b.take? = none ↔ b.queue = [] := by
  cases queue : b.queue <;> simp [take?, queue]

/-! ## What the operations leave as it is -/

@[simp] theorem frame_passOn (b : Bus ι) :
    b.passOn.capacity = b.capacity ∧ b.passOn.receiving = b.receiving ∧
      b.passOn.ownSender = b.ownSender := by
  cases h : b.parked <;> simp [passOn, h]

@[simp] theorem frame_park (b : Bus ι) (id : ι) :
    (b.park id).capacity = b.capacity ∧ (b.park id).receiving = b.receiving ∧
      (b.park id).ownSender = b.ownSender :=
  ⟨rfl, rfl, rfl⟩

@[simp] theorem frame_leave [DecidableEq ι] (b : Bus ι) (id : ι) :
    (b.leave id).capacity = b.capacity ∧ (b.leave id).receiving = b.receiving ∧
      (b.leave id).ownSender = b.ownSender := by
  by_cases h : id ∈ b.granted <;> simp [leave, h]

@[simp] theorem frame_offer (b : Bus ι) (m : Message) :
    (b.offer m).1.capacity = b.capacity ∧ (b.offer m).1.receiving = b.receiving ∧
      (b.offer m).1.ownSender = b.ownSender := by
  unfold offer
  split
  · exact ⟨rfl, rfl, rfl⟩
  · split <;> exact ⟨rfl, rfl, rfl⟩

@[simp] theorem frame_claim [DecidableEq ι] (b : Bus ι) (id : ι) (m : Message) :
    (b.claim id m).1.capacity = b.capacity ∧ (b.claim id m).1.receiving = b.receiving ∧
      (b.claim id m).1.ownSender = b.ownSender := by
  unfold claim
  split
  · exact ⟨rfl, rfl, rfl⟩
  · split <;> exact ⟨rfl, rfl, rfl⟩

theorem frame_of_take? {b b' : Bus ι} {m : Message} (h : b.take? = some (m, b')) :
    b'.capacity = b.capacity ∧ b'.receiving = b.receiving ∧ b'.ownSender = b.ownSender := by
  unfold take? at h
  split at h
  · cases h
  · cases h
    simp

/-! ## The line -/

@[simp] theorem line_passOn (b : Bus ι) : b.passOn.line = b.line := by
  unfold passOn line; split
  · rfl
  · next id rest h => simp [h]

@[simp] theorem line_park (b : Bus ι) (id : ι) : (b.park id).line = b.line ++ [id] := by
  simp [line, park]

theorem line_leave [DecidableEq ι] (b : Bus ι) (id : ι) : (b.leave id).line = b.line.erase id := by
  unfold leave; split
  · next h => rw [line_passOn, line, line, List.erase_append_left _ h]
  · next h => rw [line, line, List.erase_append_right _ h]

theorem line_offer (b : Bus ι) (m : Message) : (b.offer m).1.line = b.line := by
  unfold offer
  split
  · rfl
  · split <;> rfl

/-- Who uses a place was in line for it, and is not any more. -/
theorem line_of_claim_eq_delivered [DecidableEq ι] {b b' : Bus ι} {id : ι} {m : Message}
    (h : b.claim id m = (b', some .delivered)) : b'.line = b.line.erase id := by
  unfold claim at h
  split at h
  · cases h
  · split at h
    · next mem =>
      cases h
      exact (List.erase_append_left _ mem).symm
    · cases h

theorem line_of_take? {b b' : Bus ι} {m : Message} (h : b.take? = some (m, b')) :
    b'.line = b.line := by
  unfold take? at h
  split at h
  · cases h
  · cases h
    rw [line_passOn]
    rfl

/-! ## Tidiness -/

/-- A new bus is empty and has everybody there. -/
theorem eq_of_withCapacity {capacity : Nat} {b : Bus ι} (h : withCapacity ι capacity = .ok b) :
    b = { capacity } := by
  unfold withCapacity at h
  split at h
  · cases h
  · split at h
    · cases h
    · cases h
      rfl

/-- A bus has at least one place. -/
theorem pos_of_withCapacity {capacity : Nat} {b : Bus ι} (h : withCapacity ι capacity = .ok b) :
    0 < capacity := by
  unfold withCapacity at h
  split at h
  · cases h
  · next some => exact Nat.pos_of_ne_zero some

theorem tidy_withCapacity {capacity : Nat} {b : Bus ι} (h : withCapacity ι capacity = .ok b) :
    b.Tidy := by
  rw [eq_of_withCapacity h]
  exact ⟨by simp, by simp⟩

/-- Handing on a place that has just become free keeps a bus tidy. -/
theorem tidy_passOn {b : Bus ι} (bounded : b.queue.length + b.granted.length ≤ b.capacity)
    (packed : b.parked ≠ [] → b.queue.length + b.granted.length + 1 = b.capacity) :
    b.passOn.Tidy := by
  unfold passOn
  split
  · next h => exact ⟨bounded, fun c => absurd h c⟩
  · next id rest h =>
    have := packed (by simp [h])
    constructor
    · simp only [List.length_append, List.length_singleton]
      omega
    · intro _
      simp only [List.length_append, List.length_singleton]
      omega

namespace Tidy

variable {b : Bus ι}

protected theorem offer (h : b.Tidy) (m : Message) : (b.offer m).1.Tidy := by
  unfold Bus.offer
  split
  · exact h
  · split
    · exact h
    · next hf =>
      have room : b.queue.length + b.granted.length < b.capacity := by
        unfold free at hf
        omega
      constructor
      · simp only [List.length_append, List.length_singleton]
        omega
      · intro c
        have := h.packed c
        omega

/-- Who joins the line of a full bus keeps it tidy. -/
protected theorem park (h : b.Tidy) (full : b.free = 0) (id : ι) : (b.park id).Tidy := by
  have bounded := h.bounded
  refine ⟨bounded, fun _ => ?_⟩
  unfold free at full
  show b.queue.length + b.granted.length = b.capacity
  omega

protected theorem leave [DecidableEq ι] (h : b.Tidy) (id : ι) : (b.leave id).Tidy := by
  have bounded := h.bounded
  unfold Bus.leave
  split
  · next hg =>
    have len := List.length_erase_of_mem hg
    have pos := List.length_pos_of_mem hg
    apply tidy_passOn
    · simp only [len]
      omega
    · intro c
      have := h.packed c
      simp only [len]
      omega
  · refine ⟨bounded, fun c => h.packed fun hp => c ?_⟩
    simp [hp]

/-- A delivery that uses its place keeps the bus tidy. -/
protected theorem claim [DecidableEq ι] (h : b.Tidy) (alive : b.receiving = true) (id : ι)
    (m : Message) : (b.claim id m).1.Tidy := by
  have bounded := h.bounded
  unfold Bus.claim
  simp only [alive, Bool.not_true, Bool.false_eq_true, if_false]
  split
  · next hg =>
    have len := List.length_erase_of_mem hg
    have pos := List.length_pos_of_mem hg
    constructor
    · simp only [List.length_append, List.length_singleton, len]
      omega
    · intro c
      have := h.packed c
      simp only [List.length_append, List.length_singleton, len]
      omega
  · exact h

protected theorem take? {b' : Bus ι} {m : Message} (h : b.Tidy) (ht : b.take? = some (m, b')) :
    b'.Tidy := by
  have bounded := h.bounded
  unfold Bus.take? at ht
  split at ht
  · cases ht
  · next m' rest hq =>
    cases ht
    have len : b.queue.length = rest.length + 1 := by rw [hq, List.length_cons]
    apply tidy_passOn
    · show rest.length + b.granted.length ≤ b.capacity
      omega
    · intro c
      have := h.packed c
      show rest.length + b.granted.length + 1 = b.capacity
      omega

end Tidy

end Bus

end FeedCapture
