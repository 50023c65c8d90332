import FeedCapture.Proofs.Worker.Outline
import FeedCapture.Proofs.Worker.Sharing
import Mathlib.Algebra.Order.BigOperators.Group.List
import Mathlib.Algebra.Order.Ring.Nat

/-!
# How many steps a worker can still take

Up to a horizon a worker can take so many steps and no more: every byte that its peer sends is read
and queued, every instant has at most one read deadline and one dial that fails, and every
connection that can still come has a planned dial.  A step uses up at least one of these, whatever
the worker is told, and time alone gives none back.

## Main definitions

* `instantsLeft`, `Worker.chances` — the instants up to a horizon, and those at which a timer can
  still fire
* `Worker.Phase.allowance`, `Network.allowance` — the steps that a worker can still take up to a
  horizon, by itself and with the dials that are still to come
* `Policy.Paced` — no wait of a worker is over at once

The main statements are `Worker.allowance_of_transition` and `Worker.Phase.allowance_anti`.
-/

namespace FeedCapture

open Transport

/-- The pause after a failed dial and the read deadline take some time. -/
structure Policy.Paced (p : Policy) : Prop where
  pause : 0 < p.reconnectDelay
  deadline : 0 < p.readDeadline

/-- Policies that are accepted are paced when they pause at all. -/
theorem Policy.paced_of_check {p : Policy} (accepted : p.check = .ok ())
    (pause : p.reconnectDelay ≠ 0) : p.Paced :=
  ⟨Nat.pos_of_ne_zero pause, Nat.pos_of_ne_zero ((p.check_eq_ok_iff.1 accepted).2.1)⟩

/-- The instants from now on up to a horizon. -/
def instantsLeft (horizon now : Instant) : Nat := horizon + 1 - now

theorem instantsLeft_pos {horizon now : Instant} (early : now ≤ horizon) :
    0 < instantsLeft horizon now := Nat.sub_pos_of_lt (Nat.lt_succ_of_le early)

theorem instantsLeft_anti (horizon : Instant) {now later : Instant} (le : now ≤ later) :
    instantsLeft horizon later ≤ instantsLeft horizon now := Nat.sub_le_sub_left le _

theorem instantsLeft_lt {horizon now later : Instant} (early : now ≤ horizon) (lt : now < later) :
    instantsLeft horizon later < instantsLeft horizon now :=
  Nat.sub_lt_sub_left (Nat.lt_succ_of_le early) lt

/-- The steps that one act of a peer allows: each byte can be read by itself and wait for room. -/
def Transport.Peer.allowance : Peer → Nat
  | .sends data => 2 * data.length
  | _ => 0

/-- The steps that what is still to be read from a connection allows. -/
def Connection.allowance (c : Connection) : Nat := (c.incoming.map fun p => p.2.allowance).sum

/-- The steps up to a horizon that the outcome of a dial allows, with the read deadlines of the
connection. -/
def Transport.Outcome.allowance (horizon now : Instant) : Outcome → Nat
  | .connected peer _ => instantsLeft horizon now + (peer.map fun p => p.2.allowance).sum + 3
  | _ => 0

/-- The steps up to a horizon that a planned dial allows. -/
def Transport.Dial.allowance (horizon now : Instant) : Dial → Nat
  | .settles _ outcome => outcome.allowance horizon now
  | .hangs => 0

/-- The steps up to a horizon that the dials to come allow. -/
def Network.allowance (horizon now : Instant) (n : Network) : Nat :=
  (n.plans.map fun p => (p.2.map (Dial.allowance horizon now)).sum).sum

namespace Worker

/-- The instants up to a horizon, from now on, at which a timer can still fire. -/
def chances (horizon now due : Instant) : Nat :=
  if due ≤ now then instantsLeft horizon now else instantsLeft horizon now - 1

/-- The steps up to a horizon that a worker can take by what it is doing.  At every instant it can
dial, fail and go on to pause; the other numbers are what each phase adds to this. -/
def Phase.allowance (horizon now : Instant) : Phase → Nat
  | .ready => 3 * instantsLeft horizon now + 2
  | .dialing _ outcome => 3 * instantsLeft horizon now + 1 + outcome.allowance horizon now
  | .pausing until_ => 3 * chances horizon now until_ + 3
  | .reading link deadline =>
    chances horizon now deadline + link.connection.allowance + 3 * instantsLeft horizon now + 3
  | .delivering link _ =>
    (instantsLeft horizon now - 1) + link.connection.allowance + 3 * instantsLeft horizon now + 4
  | .stopped => 0
  | .crashed _ => 0

variable {horizon now later due : Instant}

theorem le_chances (horizon now due : Instant) :
    instantsLeft horizon now - 1 ≤ chances horizon now due := by
  unfold chances
  split
  · exact Nat.sub_le _ _
  · exact Nat.le_refl _

theorem chances_of_lt (lt : now < due) : chances horizon now due = instantsLeft horizon now - 1 :=
  if_neg (Nat.not_le.2 lt)

theorem chances_of_le (le : due ≤ now) : chances horizon now due = instantsLeft horizon now :=
  if_pos le

theorem chances_anti (horizon due : Instant) (le : now ≤ later) :
    chances horizon later due ≤ chances horizon now due := by
  have left := instantsLeft_anti horizon le
  by_cases passed : due ≤ now
  · rw [chances_of_le passed, chances_of_le (Nat.le_trans passed le)]
    exact left
  · rw [chances_of_lt (Nat.not_le.1 passed)]
    by_cases due_ : due ≤ later
    · rw [chances_of_le due_]
      exact Nat.sub_le_sub_left (Nat.lt_of_not_le passed |>.trans_le due_) _
    · rw [chances_of_lt (Nat.not_le.1 due_)]
      exact Nat.sub_le_sub_right left 1

end Worker

/-! ## Time gives nothing back -/

section

variable (horizon : Instant) {now later : Instant} (le : now ≤ later)

include le

theorem Transport.Outcome.allowance_anti (outcome : Outcome) :
    outcome.allowance horizon later ≤ outcome.allowance horizon now := by
  cases outcome with
  | connected peer tuning =>
    have := instantsLeft_anti horizon le
    simp only [allowance]
    omega
  | _ => exact Nat.le_refl _

theorem Transport.Dial.allowance_anti (dial : Dial) :
    dial.allowance horizon later ≤ dial.allowance horizon now := by
  cases dial with
  | hangs => exact Nat.le_refl _
  | settles delay outcome => exact outcome.allowance_anti horizon le

theorem Network.allowance_anti (n : Network) :
    n.allowance horizon later ≤ n.allowance horizon now :=
  List.sum_le_sum fun _ _ => List.sum_le_sum fun dial _ => dial.allowance_anti horizon le

theorem Worker.Phase.allowance_anti (phase : Phase) :
    phase.allowance horizon later ≤ phase.allowance horizon now := by
  have left := instantsLeft_anti horizon le
  cases phase with
  | ready =>
    simp only [allowance]
    omega
  | dialing due outcome =>
    have := outcome.allowance_anti horizon le
    simp only [allowance]
    omega
  | pausing until_ =>
    have := chances_anti horizon until_ le
    simp only [allowance]
    omega
  | reading link deadline =>
    have := chances_anti horizon deadline le
    simp only [allowance]
    omega
  | delivering link m =>
    simp only [allowance]
    omega
  | _ => exact Nat.le_refl _

end

/-! ## Dials and reads use something up -/

variable {horizon now : Instant}

/-- The entry that is found under a key, and the entries of other keys, cost no more than all. -/
theorem Entries.sum_lookup_add_sum_filter_le {κ α : Type} [DecidableEq κ] (cost : α → Nat)
    {entries : List (κ × α)} {k : κ} {a : α} (found : entries.lookup k = some a) :
    cost a + ((entries.filter fun e => e.1 ≠ k).map fun e => cost e.2).sum ≤
      (entries.map fun e => cost e.2).sum := by
  induction entries with
  | nil => cases found
  | cons e entries ih =>
    simp only [List.map_cons, List.sum_cons]
    by_cases same : e.1 = k
    · subst same
      obtain rfl : e.2 = a := by
        rw [List.lookup_cons] at found
        simpa using found
      have sub : (entries.filter fun x => x.1 ≠ e.1).Sublist entries := List.filter_sublist
      have := (sub.map fun e => cost e.2).sum_le_sum fun _ _ => Nat.zero_le _
      rw [List.filter_cons_of_neg (by simp)]
      omega
    · have other : (k == e.1) = false := by simpa using Ne.symm same
      rw [List.lookup_cons, other] at found
      have := ih found
      rw [List.filter_cons_of_pos (by simpa using same)]
      simp only [List.map_cons, List.sum_cons]
      omega

/-- What a dial allows was allowed by the plan of its address. -/
theorem Network.allowance_dial (horizon now : Instant) (n : Network) (addr : String) :
    (n.dial addr).1.allowance horizon now + (n.dial addr).2.allowance horizon now ≤
      n.allowance horizon now := by
  unfold dial
  cases planned : n.plan addr with
  | nil => simp [Dial.refusedAtOnce, Dial.allowance, Outcome.allowance]
  | cons next rest =>
    have found : n.plans.lookup addr = some (next :: rest) := by
      cases found : n.plans.lookup addr with
      | none => simp [plan, found] at planned
      | some dials => simpa [plan, found] using planned
    have all := Entries.sum_lookup_add_sum_filter_le
      (fun dials => (dials.map (Dial.allowance horizon now)).sum) found
    simp only [allowance, setPlan, List.map_cons, List.sum_cons] at all ⊢
    omega

/-- What is read was still to be read, at least one byte of it. -/
theorem Connection.allowance_of_read? {c c' : Connection} {room : Nat} {data : Bytes}
    (read : c.read? now room = some (.data data, c')) : c'.allowance + 2 ≤ c.allowance := by
  obtain ⟨_ | ⟨⟨due, act⟩, rest⟩⟩ := c
  · simp [read?] at read
  · simp only [read?] at read
    split at read
    · cases read
    · cases act with
      | sends bytes =>
        simp only at read
        split at read
        · cases read
        · next some_ =>
          have taken : (bytes.take room).length ≠ 0 := by simpa using some_
          rw [List.length_take] at taken
          split at read
          · cases read
            simp only [allowance, Peer.allowance, List.map_cons, List.sum_cons]
            omega
          · cases read
            simp only [allowance, Peer.allowance, List.map_cons, List.sum_cons, List.length_drop]
            omega
      | _ => cases read

/-- A new connection has what its peer will do. -/
theorem Connection.allowance_opened (start : Instant) (peer : List (Duration × Peer)) :
    (opened start peer).allowance = (peer.map fun p => p.2.allowance).sum := by
  unfold opened
  induction peer generalizing start with
  | nil => rfl
  | cons p peer ih =>
    have := ih (start + p.1)
    simp only [allowance] at this
    simp [allowance, schedule, this]

namespace Worker

variable {h : Hub} {w : Worker} {s : Step}

/-- Leaving a connection gives nothing back but what a worker without one can do. -/
theorem allowance_leave (h : Hub) (w : Worker) (reason : ReadExit) :
    (leave h w reason).worker.phase.allowance horizon now ≤ 3 * instantsLeft horizon now + 2 := by
  rw [phase_leave]
  split
  · exact Nat.zero_le _
  · exact Nat.le_refl _

theorem allowance_begin (going : h.stopping = false) :
    (begin h w).worker.phase.allowance horizon now =
      3 * instantsLeft horizon now + 1 + (h.network.dial w.key.addr).1.allowance horizon now := by
  simp only [begin, going, Bool.false_eq_true, if_false]
  cases (h.network.dial w.key.addr).1 <;> rfl

/-- Only who dials changes the dials to come. -/
theorem network_of_transition (step : Transition h w s) :
    s.hub.network = h.network ∨ (w.phase = .ready ∧ h.stopping = false ∧ s = begin h w) := by
  have left : ∀ (bus : Bus Nat) (reason : ReadExit),
      (leave { h with bus } w reason).hub.network = h.network := by
    intro bus reason
    unfold leave
    dsimp only
    split <;> simp
  cases step with
  | dial phase going => exact .inr ⟨phase, going, rfl⟩
  | refused phase going passed => exact .inl (by simp [failDial])
  | connected phase going passed => exact .inl (by simp [connect])
  | closed phase close => exact .inl (left h.bus _)
  | eof phase going read => exact .inl (left h.bus _)
  | failed phase going read => exact .inl (left h.bus _)
  | queued phase going read offer => exact .inl (by simp [delivered])
  | unwanted phase going read offer => exact .inl (left h.bus _)
  | idle phase going read passed stale => exact .inl (left h.bus _)
  | givenUp phase close => exact .inl (left _ _)
  | abandoned phase going claim => exact .inl (left _ _)
  | handedOver phase going claim => exact .inl (by simp [delivered])
  | _ => exact .inl rfl

/-- A worker that goes on reading has its next deadline at a later instant. -/
theorem allowance_readOn (horizon : Instant) (h : Hub) (w : Worker) (paced : h.policy.Paced)
    (link : Link) :
    (w.readOn h link).phase.allowance horizon h.now =
      (instantsLeft horizon h.now - 1) + link.connection.allowance +
        3 * instantsLeft horizon h.now + 3 := by
  have later : h.now < h.now + h.policy.readDeadline := Nat.lt_add_of_pos_right paced.deadline
  simp only [readOn, Phase.allowance, chances_of_lt later]

/-- A worker that has not ended can take a step more. -/
theorem allowance_pos (horizon now : Instant) {phase : Phase} (going : phase.link ≠ .stopped) :
    0 < phase.allowance horizon now := by
  cases phase with
  | stopped => exact absurd rfl going
  | crashed reason => exact absurd rfl going
  | _ =>
    simp only [Phase.allowance]
    omega

/-- A worker with a connection can take a step more than one that has left it. -/
theorem lt_allowance_of_connected {phase : Phase} (link : phase.link = .connected) :
    3 * instantsLeft horizon now + 2 < phase.allowance horizon now := by
  cases phase with
  | reading link deadline =>
    simp only [Phase.allowance]
    omega
  | delivering link m =>
    simp only [Phase.allowance]
    omega
  | _ => cases link

/-- A step that is no dial uses up some of what the worker is allowed. -/
theorem allowance_worker_lt (paced : h.policy.Paced) (step : Transition h w s)
    (early : h.now ≤ horizon) (other : w.phase ≠ .ready ∨ h.stopping = true) :
    s.worker.phase.allowance horizon h.now < w.phase.allowance horizon h.now := by
  have left := instantsLeft_pos early
  have ends := allowance_pos horizon h.now (going_of_transition step)
  have leaves : ∀ (bus : Bus Nat) (reason : ReadExit), w.phase.link = .connected →
      (leave { h with bus } w reason).worker.phase.allowance horizon h.now <
        w.phase.allowance horizon h.now :=
    fun bus reason link =>
      Nat.lt_of_le_of_lt (allowance_leave _ w reason) (lt_allowance_of_connected link)
  cases step with
  | halt idle stopping => exact ends
  | dial phase going => simp [phase, going] at other
  | @refused due e phase going passed =>
    have later : h.now < h.now + h.policy.reconnectDelay := Nat.lt_add_of_pos_right paced.pause
    simp only [worker_after, failDial, phase, Phase.allowance, Outcome.allowance,
      chances_of_lt later]
    omega
  | dialBroke phase going passed => exact ends
  | @connected due peer tuning phase going passed =>
    have later : h.now < h.now + h.policy.readDeadline := Nat.lt_add_of_pos_right paced.deadline
    rw [worker_after, phase_connect, phase]
    simp only [Phase.allowance, Outcome.allowance, chances_of_lt later,
      Connection.allowance_opened]
    omega
  | retry phase going passed =>
    simp only [phase, Phase.allowance, chances_of_le passed]
    omega
  | closed phase close => exact leaves h.bus _ (by rw [phase]; rfl)
  | eof phase going read => exact leaves h.bus _ (by rw [phase]; rfl)
  | failed phase going read => exact leaves h.bus _ (by rw [phase]; rfl)
  | readBroke phase going read => exact ends
  | @queued link deadline c data bus phase going read offer =>
    have used := Connection.allowance_of_read? read
    have some_ := le_chances horizon h.now deadline
    have reads := allowance_readOn horizon { h with bus } w paced (link.readNow h c)
    rw [phase]
    refine Nat.lt_of_le_of_lt (Nat.le_of_eq reads) ?_
    simp only [Phase.allowance, Link.readNow]
    omega
  | @parked link deadline c data bus phase going read offer =>
    have used := Connection.allowance_of_read? read
    have some_ := le_chances horizon h.now deadline
    simp only [phase, Phase.allowance, Link.readNow]
    omega
  | unwanted phase going read offer => exact leaves h.bus _ (by rw [phase]; rfl)
  | idle phase going read passed stale => exact leaves h.bus _ (by rw [phase]; rfl)
  | @silent link deadline phase going read passed fresh =>
    rw [allowance_readOn horizon h w paced, phase]
    simp only [Phase.allowance, chances_of_le passed]
    omega
  | givenUp phase close => exact leaves _ _ (by rw [phase]; rfl)
  | abandoned phase going claim => exact leaves _ _ (by rw [phase]; rfl)
  | @handedOver link m bus phase going claim =>
    have reads := allowance_readOn horizon { h with bus } w paced link
    rw [phase]
    refine Nat.lt_of_le_of_lt (Nat.le_of_eq reads) ?_
    simp only [Phase.allowance]
    omega

/-- **Every step uses something up.**  A step up to the horizon leaves the worker, with the dials to
come, one step less at least. -/
theorem allowance_of_transition (paced : h.policy.Paced) (step : Transition h w s)
    (early : h.now ≤ horizon) :
    s.worker.phase.allowance horizon h.now + s.hub.network.allowance horizon h.now + 1 ≤
      w.phase.allowance horizon h.now + h.network.allowance horizon h.now := by
  by_cases dials : w.phase = .ready ∧ h.stopping = false
  · obtain ⟨phase, going⟩ := dials
    obtain rfl : s = begin h w := by
      cases step <;> simp_all
    have planned := h.network.allowance_dial horizon h.now w.key.addr
    rw [allowance_begin going, hub_begin h w going, phase]
    simp only [Phase.allowance]
    omega
  · have other : w.phase ≠ .ready ∨ h.stopping = true := by
      cases going : h.stopping <;> simp_all
    have used := allowance_worker_lt paced step early other
    rcases network_of_transition step with same | ⟨phase, going, -⟩
    · rw [same]
      omega
    · exact absurd ⟨phase, going⟩ dials

/-- A step puts one message on the bus at most. -/
theorem length_queue_le (step : Transition h w s) :
    s.hub.bus.queue.length ≤ h.bus.queue.length + 1 := by
  cases step with
  | dial phase going => simp
  | @queued link deadline c data bus phase going read offer =>
    obtain ⟨-, -, rfl⟩ := Bus.offer_eq_queued offer
    simp
  | @parked link deadline c data bus phase going read offer =>
    obtain ⟨-, -, rfl⟩ := Bus.offer_eq_full offer
    simp
  | @abandoned link m bus phase going claim =>
    have queue := h.bus.queue_claim w.key.slot m
    rw [claim] at queue
    have same : bus.queue = h.bus.queue := by simpa using queue
    simp [same]
  | @handedOver link m bus phase going claim =>
    have queue := h.bus.queue_claim w.key.slot m
    rw [claim] at queue
    have longer : bus.queue = h.bus.queue ++ [m] := by simpa using queue
    simp [longer]
  | _ => simp

end Worker

end FeedCapture
