import FeedCapture.Proofs.Worker.Sharing
import FeedCapture.Proofs.Worker.Waiting
import Mathlib.Logic.Function.Iterate

/-!
# A worker by itself

What a worker does depends on what it is doing, on the time, the policy and the stop token, and on
the dials that are planned for its address.  The rest of what it shares with other workers makes no
difference: while it waits for room on the bus it does nothing else, so when the room comes at the
same instant, all is as if there had been room at once.

## Main definitions

* `Hub.alone`, `Worker.alone` — a hub and a worker without all that makes no difference
* `Solo` — a worker by itself and what it did, with `Solo.next?` and `Solo.advance`

The main statements say that each step of a worker is the next one of the worker by itself, or
completes a delivery (`Solo.next?_of_transition`), and that a worker by itself can wait at an
instant in one way only (`Solo.eq_of_iterate`).
-/

namespace FeedCapture

open Transport

/-! ## What makes a difference to a worker -/

/-- A hub with a bus, a registry and tokens of its own for the worker of one address. -/
def Hub.alone (h : Hub) (addr : String) : Hub where
  policy := h.policy
  now := h.now
  epoch := h.epoch
  tokens := ⟨#[⟨none, h.stopping⟩]⟩
  stop := 0
  bus := { capacity := 1 }
  counting := false
  network := ⟨[(addr, h.network.plan addr)]⟩

namespace Worker

/-- A link that only the stop token closes. -/
def Link.alone (link : Link) : Link := { link with close := 0 }

/-- What a worker is doing, where one that waits for room reads on until `again`. -/
def Phase.alone (again : Instant) : Phase → Phase
  | .reading link deadline => .reading link.alone deadline
  | .delivering link _ => .reading link.alone again
  | phase => phase

/-- A worker as if nobody else was there. -/
def alone (h : Hub) (w : Worker) : Worker :=
  { w with
    key := ⟨0, w.key.addr⟩
    phase := w.phase.alone (h.now + h.policy.readDeadline) }

/-- Nothing was cancelled so far, or the stop token was cancelled and the worker does not wait for
room. -/
def Steady (h : Hub) (w : Worker) : Prop :=
  h.tokens.Clear ∨ h.tokens.Fired h.stop ∧ w.phase.inHand = none

/-- The connection of a worker is closed when all workers are to stop. -/
theorem Steady.stopping_of_reading {h : Hub} {w : Worker} (steady : w.Steady h) (wired : w.Wired h)
    {link : Link} {deadline : Instant} {closed : Bool} (phase : w.phase = .reading link deadline)
    (close : h.tokens.isCancelled link.close = closed) : h.stopping = closed := by
  rw [← close]
  rcases steady with clear | ⟨fired, -⟩
  · exact (TokenTree.isCancelled_of_clear clear _).trans
      (TokenTree.isCancelled_of_clear clear _).symm
  · have child := wired.close link (by rw [phase]; rfl)
    exact (TokenTree.isCancelled_of_fired fired).trans
      (TokenTree.isCancelled_of_childOf child fired).symm

/-- The event is about the registry alone. -/
def Event.isNotice : Event → Bool
  | .registry _ => true
  | _ => false

/-- What is noted of the events of an instant, the latest first. -/
def stamp (t : Instant) (es : List Event) : List (Instant × Event) :=
  ((es.filter fun e => !e.isNotice).map fun e => (t, e)).reverse

theorem stamp_append (t : Instant) (xs ys : List Event) :
    stamp t (xs ++ ys) = stamp t ys ++ stamp t xs := by
  simp [stamp]

@[simp] theorem stamp_notices (t : Instant) (notices : List Registry.Notice) :
    stamp t (notices.map .registry) = [] := by
  induction notices with
  | nil => rfl
  | cons notice notices ih => exact ih

end Worker

section

variable (h : Hub) (w : Worker) (addr : String)

@[simp] theorem Hub.frame_alone : (h.alone addr).policy = h.policy ∧ (h.alone addr).now = h.now ∧
    (h.alone addr).epoch = h.epoch :=
  ⟨rfl, rfl, rfl⟩

@[simp] theorem Hub.isCancelled_alone : (h.alone addr).tokens.isCancelled 0 = h.stopping := by
  rw [TokenTree.isCancelled]
  simp [alone]

@[simp] theorem Hub.stopping_alone : (h.alone addr).stopping = h.stopping :=
  h.isCancelled_alone addr

@[simp] theorem Hub.plan_alone : (h.alone addr).network.plan addr = h.network.plan addr := by
  simp [alone, Network.plan]

theorem Hub.clear_alone (going : h.stopping = false) : (h.alone addr).tokens.Clear := by
  intro token node hn
  simp only [alone, going] at hn
  rcases token with _ | token
  · simpa using (congrArg TokenTree.Node.fired (Option.some.inj hn)).symm
  · simp at hn

/-- Hubs that differ only in what makes no difference. -/
theorem Hub.alone_congr {h h' : Hub} (policy : h'.policy = h.policy) (now : h'.now = h.now)
    (epoch : h'.epoch = h.epoch) (stopping : h'.stopping = h.stopping)
    (plan : h'.network.plan addr = h.network.plan addr) : h'.alone addr = h.alone addr := by
  simp only [alone, policy, now, epoch, stopping, plan]

@[simp] theorem Hub.alone_alone : (h.alone addr).alone addr = h.alone addr :=
  Hub.alone_congr addr rfl rfl rfl (by simp) (by simp)

end

/-- A worker by itself, and what it did, the latest first. -/
structure Solo where
  hub : Hub
  worker : Worker
  past : List (Instant × Worker.Event)

namespace Solo

open Worker

/-- What a worker with some past is by itself.  A message that waits for room counts as if it was on
the bus. -/
def of (h : Hub) (w : Worker) (past : List (Instant × Event)) : Solo where
  hub := h.alone w.key.addr
  worker := w.alone h
  past := stamp h.now (w.phase.inHand.toList.map .delivered) ++ past

/-- A worker that has just been made. -/
def new (policy : Policy) (plan : List Dial) (addr : String) (t : Instant) : Solo where
  hub := { policy, now := t, tokens := ⟨#[⟨none, false⟩]⟩, stop := 0, bus := { capacity := 1 }
           counting := false, network := ⟨[(addr, plan)]⟩ }
  worker := { key := ⟨0, addr⟩ }
  past := []

/-- What a step leads to for a worker by itself. -/
def reach (past : List (Instant × Event)) (t : Instant) (s : Step) : Solo :=
  of s.hub s.worker (stamp t s.events ++ past)

/-- What the next step leads to; nothing when the worker waits or has ended. -/
def next? (v : Solo) : Option Solo := (v.worker.step? v.hub).map (reach v.past v.hub.now)

/-- Moves the clock on. -/
def moveTo (v : Solo) (t : Instant) : Solo := { v with hub := { v.hub with now := t } }

/-- Tells the worker to stop. -/
def signalled (v : Solo) : Solo :=
  { v with hub := { v.hub with tokens := ⟨#[⟨none, true⟩]⟩ } }

/-- The next step, or else the next instant. -/
def advance (v : Solo) : Solo := v.next?.getD (v.moveTo (v.hub.now + 1))

variable {h : Hub} {w : Worker} {past : List (Instant × Event)} {t : Instant}

/-- Only what a hub is for the worker by itself makes a difference. -/
theorem of_congr {h' : Hub} (same : h'.alone w.key.addr = h.alone w.key.addr) :
    of h' w past = of h w past := by
  have now : h'.now = h.now := by simpa using congrArg Hub.now same
  have policy : h'.policy = h.policy := by simpa using congrArg Hub.policy same
  simp only [of, Worker.alone, same, now, policy]

/-- What is noted before the rest of a step. -/
theorem reach_after (s : Step) (e : Event) :
    reach past t (s.after e) = reach (stamp t [e] ++ past) t s := by
  have split : stamp t (e :: s.events) = stamp t s.events ++ stamp t [e] := stamp_append t [e] _
  simp only [reach, hub_after, worker_after, events_after, split, List.append_assoc]

/-- Steps that lead to hubs and workers that are by themselves the same. -/
theorem reach_congr {s s' : Step} (addr : String) (hub : s'.hub.alone addr = s.hub.alone addr)
    (key : s.worker.key.addr = addr) (key' : s'.worker.key.addr = addr)
    (worker : s'.worker.alone s'.hub = s.worker.alone s.hub)
    (hand : s.worker.phase.inHand = none) (hand' : s'.worker.phase.inHand = none)
    (events : stamp t s'.events = stamp t s.events) : reach past t s' = reach past t s := by
  simp only [reach, of, key', key, hub, worker, hand, hand', events]
  rfl

@[simp] theorem link_alone (again : Instant) (phase : Phase) :
    (phase.alone again).link = phase.link := by
  cases phase <;> rfl

@[simp] theorem addr_alone : (w.alone h).key.addr = w.key.addr := rfl

@[simp] theorem alone_withRegistry (registry : Registry) (addr : String) :
    Hub.alone { h with registry } addr = h.alone addr := rfl

@[simp] theorem alone_withBus (bus : Bus Nat) (addr : String) :
    Hub.alone { h with bus } addr = h.alone addr := rfl

@[simp] theorem alone_count (f : Metrics → Metrics) (addr : String) :
    (h.count f).alone addr = h.alone addr := by
  obtain ⟨metrics, eq⟩ := h.count_eq f
  rw [eq]
  rfl

variable (h w past t)

theorem reach_stop :
    reach past t (stop (h.alone w.key.addr) (w.alone h)) = reach past t (stop h w) := by
  refine reach_congr w.key.addr (by simp) rfl rfl rfl rfl rfl ?_
  simp [stop, Worker.alone]

theorem reach_begin (going : h.stopping = false) :
    reach past t (begin (h.alone w.key.addr) (w.alone h)) = reach past t (begin h w) := by
  have going' : (h.alone w.key.addr).stopping = false := by rw [Hub.stopping_alone, going]
  have dial : ((h.alone w.key.addr).network.dial w.key.addr).1 = (h.network.dial w.key.addr).1 := by
    rw [Network.dial_fst, Network.dial_fst, Hub.plan_alone]
  have plan : ((h.alone w.key.addr).network.dial w.key.addr).2.plan w.key.addr =
      (h.network.dial w.key.addr).2.plan w.key.addr := by
    rw [Network.plan_dial_self, Network.plan_dial_self, Hub.plan_alone]
  simp only [begin, going, going', Bool.false_eq_true, if_false, addr_alone]
  generalize (h.alone w.key.addr).network.dial w.key.addr = found' at dial plan ⊢
  generalize h.network.dial w.key.addr = found at dial plan ⊢
  obtain ⟨next, network⟩ := found
  obtain ⟨next', network'⟩ := found'
  obtain rfl : next' = next := dial
  have hub : Hub.alone { h.alone w.key.addr with network := network' } w.key.addr =
      Hub.alone { h with network } w.key.addr :=
    Hub.alone_congr w.key.addr rfl rfl rfl (h.stopping_alone w.key.addr) plan
  cases next' with
  | hangs => exact reach_congr w.key.addr hub rfl rfl rfl rfl rfl (by simp [Worker.alone])
  | settles delay outcome =>
    exact reach_congr w.key.addr hub rfl rfl rfl rfl rfl (by simp [Worker.alone])

theorem reach_failDial (e : Failure) :
    reach past t (failDial (h.alone w.key.addr) (w.alone h) e) = reach past t (failDial h w e) := by
  refine reach_congr w.key.addr ?_ rfl rfl rfl rfl rfl ?_
  · simp [failDial]
  · simp [failDial, Worker.alone]

theorem reach_crash (reason : String) :
    reach past t (crash (h.alone w.key.addr) (w.alone h) reason) =
      reach past t (crash h w reason) := by
  refine reach_congr w.key.addr ?_ rfl rfl rfl rfl rfl ?_
  · exact h.alone_alone _
  · simp [crash]

theorem reach_leave {reason : ReadExit} (other : reason ≠ .busClosed) :
    reach past t (leave (h.alone w.key.addr) (w.alone h) reason) =
      reach past t (leave h w reason) := by
  simp only [leave, other, if_false]
  refine reach_congr w.key.addr ?_ rfl rfl ?_ rfl rfl ?_
  · simp only [alone_count, alone_withRegistry, Hub.alone_alone]
  · simp [Worker.alone, Phase.alone]
  · simp [stamp_append, Worker.alone]

theorem reach_connect (clear : h.tokens.Clear) (free : h.registry.get? w.key = none)
    (peer : List (Duration × Peer)) (tuning : Option Tuning) :
    reach past t (connect (h.alone w.key.addr) (w.alone h) peer tuning) =
      reach past t (connect h w peer tuning) := by
  have going : h.stopping = false := TokenTree.isCancelled_of_clear clear _
  have free' : (h.alone w.key.addr).registry.get? (w.alone h).key = none := rfl
  refine reach_congr w.key.addr ?_ rfl rfl ?_ rfl rfl ?_
  · simp only [connect, Registry.register, free, free', alone_count]
    refine Hub.alone_congr _ rfl rfl rfl ?_ (by simp)
    have clear' := h.clear_alone w.key.addr going
    exact (TokenTree.isCancelled_of_clear (clear'.add _) _).trans
      (TokenTree.isCancelled_of_clear (clear.add _) _).symm
  · simp [connect, Worker.alone, Phase.alone, Link.alone]
  · simp only [connect, stamp_append, stamp_notices, Worker.alone, link_alone, Hub.frame_alone,
      Hub.frame_count]

/-- A message that is put on the bus counts as much as one that waits for room. -/
theorem reach_delivered (bus : Bus Nat) (link : Link) (m : Message) :
    reach past h.now (delivered { h with bus } w link m) =
      of h { w with phase := .delivering link m } past := by
  simp only [reach, of, delivered, alone_count, alone_withBus]
  simp [Worker.alone, readOn, Phase.alone, Phase.inHand, stamp]

/-- For a worker by itself there is always room. -/
theorem reach_delivered_alone (bus : Bus Nat) (link : Link) (m : Message) :
    reach past h.now
        (delivered { h.alone w.key.addr with bus } (w.alone h) link.alone m) =
      of h { w with phase := .delivering link m } past := by
  refine (reach_delivered (h.alone w.key.addr) (w.alone h) past bus link.alone m).trans ?_
  simp only [of, addr_alone, Hub.alone_alone]
  rfl

variable {h w past}

theorem next?_of (hand : w.phase.inHand = none) :
    (of h w past).next? =
      ((w.alone h).step? (h.alone w.key.addr)).map (reach past h.now) := by
  simp [next?, of, hand, stamp]

/-- What a worker by itself does next, when it does what the worker does. -/
theorem next?_eq {s s' : Step} (hand : w.phase.inHand = none)
    (steps : (w.alone h).step? (h.alone w.key.addr) = some s')
    (same : reach past h.now s' = reach past h.now s) :
    (of h w past).next? = some (reach past h.now s) := by
  rw [next?_of hand, steps, Option.map_some, same]

/-- A worker by itself is done with a dial when the worker is. -/
theorem step?_alone_of_dialing {due : Instant} {outcome : Outcome}
    (phase : w.phase = .dialing (some due) outcome) (going : h.stopping = false)
    (passed : due ≤ h.now) :
    (w.alone h).step? (h.alone w.key.addr) =
      some ((dialEnded (h.alone w.key.addr) (w.alone h) outcome).after (.dialEnded outcome)) := by
  simp [step?, Worker.alone, phase, Phase.alone, going, passed]

section Reading

variable {link : Link} {deadline : Instant} (steady : w.Steady h) (wired : w.Wired h)
  (phase : w.phase = .reading link deadline)

include phase

theorem phase_alone_of_reading : (w.alone h).phase = .reading link.alone deadline := by
  simp [Worker.alone, phase, Phase.alone]

include steady wired

/-- The connection of a worker by itself is closed when that of the worker is. -/
theorem isCancelled_alone_of_reading {closed : Bool}
    (close : h.tokens.isCancelled link.close = closed) :
    (h.alone w.key.addr).tokens.isCancelled link.alone.close = closed := by
  rw [← steady.stopping_of_reading wired phase close]
  exact h.isCancelled_alone _

/-- A worker by itself reads what the worker reads. -/
theorem step?_alone_of_read {result : Connection.ReadResult} {c : Connection}
    (going : h.tokens.isCancelled link.close = false)
    (read : link.connection.read? h.now h.policy.readBufferSize = some (result, c)) :
    (w.alone h).step? (h.alone w.key.addr) =
      some ((received (h.alone w.key.addr) (w.alone h)
        { link.alone with connection := c } result).after (.read result)) := by
  have close := isCancelled_alone_of_reading steady wired phase going
  have read' : link.alone.connection.read? (h.alone w.key.addr).now
      (h.alone w.key.addr).policy.readBufferSize = some (result, c) := read
  simp only [step?, phase_alone_of_reading phase, close, read', Bool.false_eq_true, if_false]

/-- A worker by itself gets no answer by the read deadline when the worker gets none. -/
theorem step?_alone_of_silence (going : h.tokens.isCancelled link.close = false)
    (read : link.connection.read? h.now h.policy.readBufferSize = none)
    (passed : deadline ≤ h.now) :
    (w.alone h).step? (h.alone w.key.addr) =
      some (timeOut (h.alone w.key.addr) (w.alone h) link.alone) := by
  have close := isCancelled_alone_of_reading steady wired phase going
  have read' : link.alone.connection.read? (h.alone w.key.addr).now
      (h.alone w.key.addr).policy.readBufferSize = none := read
  have passed' : deadline ≤ (h.alone w.key.addr).now := passed
  simp only [step?, phase_alone_of_reading phase, close, read', passed', Bool.false_eq_true,
    if_false, if_true]

end Reading

/-- **Each step of a worker is a step of the worker by itself**, unless it completes a delivery,
which has been counted before. -/
theorem next?_of_transition {s : Step} (step : Transition h w s) (wired : w.Wired h)
    (alive : h.bus.receiving = true) (steady : w.Steady h) :
    reach past h.now s = of h w past ∨ (of h w past).next? = some (reach past h.now s) := by
  have shut : ∀ {phase : Phase}, w.phase = phase → phase.inHand = none → w.phase.inHand = none := by
    rintro _ rfl hand
    exact hand
  cases step with
  | halt idle stopping =>
    have hand : w.phase.inHand = none := by
      rcases idle with phase | ⟨due, outcome, phase⟩ | ⟨until_, phase⟩ <;> rw [phase] <;> rfl
    have steps : (w.alone h).step? (h.alone w.key.addr) =
        some (stop (h.alone w.key.addr) (w.alone h)) := by
      rcases idle with phase | ⟨due, outcome, phase⟩ | ⟨until_, phase⟩ <;>
        simp [step?, Worker.alone, phase, Phase.alone, stopping, begin]
    exact .inr (next?_eq hand steps (reach_stop ..))
  | dial phase going =>
    have steps : (w.alone h).step? (h.alone w.key.addr) =
        some (begin (h.alone w.key.addr) (w.alone h)) := by
      simp [step?, Worker.alone, phase, Phase.alone]
    exact .inr (next?_eq (shut phase rfl) steps (reach_begin h w past h.now going))
  | refused phase going passed =>
    refine .inr (next?_eq (shut phase rfl) (step?_alone_of_dialing phase going passed) ?_)
    rw [reach_after, reach_after]
    exact reach_failDial h w _ _ _
  | dialBroke phase going passed =>
    refine .inr (next?_eq (shut phase rfl) (step?_alone_of_dialing phase going passed) ?_)
    rw [reach_after, reach_after]
    exact reach_crash h w _ _ _
  | connected phase going passed =>
    have clear : h.tokens.Clear := by
      rcases steady with clear | ⟨fired, -⟩
      · exact clear
      · exact absurd (TokenTree.isCancelled_of_fired fired) (by simpa [Hub.stopping] using going)
    have free : h.registry.get? w.key = none := by
      rw [wired.entry, phase]
      rfl
    refine .inr (next?_eq (shut phase rfl) (step?_alone_of_dialing phase going passed) ?_)
    rw [reach_after, reach_after]
    exact reach_connect h w _ _ clear free _ _
  | retry phase going passed =>
    have steps : (w.alone h).step? (h.alone w.key.addr) =
        some { hub := h.alone w.key.addr, worker := { w.alone h with phase := .ready } } := by
      simp [step?, Worker.alone, phase, Phase.alone, going, passed]
    exact .inr (next?_eq (shut phase rfl) steps
      (reach_congr w.key.addr (h.alone_alone _) rfl rfl rfl rfl rfl rfl))
  | closed phase close =>
    have steps : (w.alone h).step? (h.alone w.key.addr) =
        some (leave (h.alone w.key.addr) (w.alone h) .closed) := by
      simp only [step?, phase_alone_of_reading phase,
        isCancelled_alone_of_reading steady wired phase close, if_true]
    exact .inr (next?_eq (shut phase rfl) steps (reach_leave h w past h.now (by simp)))
  | eof phase going read =>
    refine .inr (next?_eq (shut phase rfl) (step?_alone_of_read steady wired phase going read) ?_)
    rw [reach_after, reach_after]
    exact reach_leave h w _ _ (by simp)
  | failed phase going read =>
    refine .inr (next?_eq (shut phase rfl) (step?_alone_of_read steady wired phase going read) ?_)
    rw [reach_after, reach_after]
    exact reach_leave h w _ _ (by simp)
  | readBroke phase going read =>
    refine .inr (next?_eq (shut phase rfl) (step?_alone_of_read steady wired phase going read) ?_)
    rw [reach_after, reach_after]
    exact reach_crash h w _ _ _
  | @idle link deadline phase going read passed stale =>
    have silent := step?_alone_of_silence steady wired phase going read passed
    have left : timeOut (h.alone w.key.addr) (w.alone h) link.alone =
        leave (h.alone w.key.addr) (w.alone h) (.idle (h.now - link.lastMessage)) := if_pos stale
    exact .inr (next?_eq (shut phase rfl) (silent.trans (congrArg some left))
      (reach_leave h w past h.now (by simp)))
  | @silent link deadline phase going read passed fresh =>
    have silent := step?_alone_of_silence steady wired phase going read passed
    have stays : timeOut (h.alone w.key.addr) (w.alone h) link.alone =
        { hub := h.alone w.key.addr
          worker := (w.alone h).readOn (h.alone w.key.addr) link.alone
          events := [.silent (h.now - link.lastMessage)] } := if_neg (Nat.not_lt.2 fresh)
    exact .inr (next?_eq (shut phase rfl) (silent.trans (congrArg some stays))
      (reach_congr w.key.addr (h.alone_alone _) rfl rfl rfl rfl rfl rfl))
  | @queued link deadline c data bus phase going read offer =>
    refine .inr (next?_eq (shut phase rfl) (step?_alone_of_read steady wired phase going read) ?_)
    rw [reach_after, reach_after, reach_delivered]
    exact reach_delivered_alone h w _ _ (link.readNow h c) (w.message h data)
  | @parked link deadline c data bus phase going read offer =>
    refine .inr (next?_eq (shut phase rfl) (step?_alone_of_read steady wired phase going read) ?_)
    rw [reach_after]
    exact reach_delivered_alone h w _ _ (link.readNow h c) (w.message h data)
  | unwanted phase going read offer =>
    exact absurd (Bus.offer_eq_closed offer).1 (by simp [alive])
  | givenUp phase close =>
    rcases steady with clear | ⟨-, none⟩
    · rw [TokenTree.isCancelled_of_clear clear] at close
      cases close
    · rw [phase] at none
      cases none
  | abandoned phase going claim =>
    exact absurd (congrArg Prod.snd claim) (Bus.claim_ne_closed alive _ _)
  | @handedOver link m bus phase going claim =>
    left
    rw [reach_delivered, ← phase]

/-- A worker that waits does so by itself, too. -/
theorem next?_eq_none (waits : w.step? h = none) (hand : w.phase.inHand = none)
    (wired : w.Wired h) (steady : w.Steady h) : (of h w past).next? = none := by
  rw [next?_of hand, Option.map_eq_none_iff]
  cases phase : w.phase with
  | ready => simp [step?, phase] at waits
  | dialing due outcome =>
    have phase' : (w.alone h).phase = .dialing due outcome := by
      simp [Worker.alone, phase, Phase.alone]
    rw [waits_dialing phase', Hub.stopping_alone]
    exact (waits_dialing phase).1 waits
  | pausing until_ =>
    have phase' : (w.alone h).phase = .pausing until_ := by
      simp [Worker.alone, phase, Phase.alone]
    rw [waits_pausing phase', Hub.stopping_alone]
    exact (waits_pausing phase).1 waits
  | reading link deadline =>
    obtain ⟨going, rest⟩ := (waits_reading phase).1 waits
    exact (waits_reading (phase_alone_of_reading phase)).2
      ⟨isCancelled_alone_of_reading steady wired phase going, rest⟩
  | delivering link m => simp [phase, Phase.inHand] at hand
  | stopped => simp [step?, phase, Worker.alone, Phase.alone]
  | crashed reason => simp [step?, phase, Worker.alone, Phase.alone]

/-! ## Time -/

theorem moveTo_of (hand : w.phase.inHand = none) (t : Instant) :
    (of h w past).moveTo t = of { h with now := t } w past := by
  have same : w.alone { h with now := t } = w.alone h := by
    cases phase : w.phase with
    | delivering link m => simp [phase, Phase.inHand] at hand
    | _ => simp [Worker.alone, phase, Phase.alone]
  simp only [moveTo, of, same, hand]
  rfl

/-- Waiting until the time at which a worker goes on is waiting instant by instant. -/
theorem iterate_advance_of_waits (waits : w.step? h = none) (hand : w.phase.inHand = none)
    (wired : w.Wired h) (steady : w.Steady h) (n : Nat)
    (early : ∀ wake, w.wakeAt = some wake → h.now + n ≤ wake) :
    advance^[n] (of h w past) = of { h with now := h.now + n } w past := by
  induction n with
  | zero => rfl
  | succ n ih =>
    have later : ∀ wake, w.wakeAt = some wake → h.now + n < wake := fun wake hw =>
      Nat.lt_of_succ_le (early wake hw)
    have waits' : w.step? { h with now := h.now + n } = none := step?_moveTo waits later
    have stuck : (of { h with now := h.now + n } w past).next? = none :=
      next?_eq_none waits' hand ⟨wired.close, wired.entry⟩ steady
    rw [Function.iterate_succ_apply', ih fun wake hw => Nat.le_of_lt (later wake hw), advance,
      stuck, Option.getD_none, moveTo_of hand]
    rfl

/-! ## There is one way only -/

theorem now_of_next? {v u : Solo} (hu : v.next? = some u) : u.hub.now = v.hub.now := by
  obtain ⟨s, hs, rfl⟩ := Option.map_eq_some_iff.1 hu
  exact (kept_of_transition (transition_of_step? hs)).now

theorem now_le_advance (v : Solo) : v.hub.now ≤ v.advance.hub.now := by
  unfold advance
  cases hu : v.next? with
  | none => exact Nat.le_succ _
  | some u => exact Nat.le_of_eq (now_of_next? hu).symm

theorem now_le_iterate (v : Solo) (n : Nat) : v.hub.now ≤ (advance^[n] v).hub.now := by
  induction n with
  | zero => exact Nat.le_refl _
  | succ n ih =>
    rw [Function.iterate_succ_apply']
    exact Nat.le_trans ih (now_le_advance _)

/-- A worker that waits goes on at a later instant only. -/
theorem eq_zero_of_waits {v : Solo} (waits : v.next? = none) {n : Nat}
    (now : (advance^[n] v).hub.now = v.hub.now) : n = 0 := by
  cases n with
  | zero => rfl
  | succ n =>
    have later := now_le_iterate v.advance n
    have next : v.advance.hub.now = v.hub.now + 1 := by
      rw [advance, waits]
      rfl
    rw [Function.iterate_succ_apply] at now
    rw [now, next] at later
    exact absurd later (Nat.not_succ_le_self _)

/-- **A worker by itself can wait at an instant in one way only.** -/
theorem eq_of_iterate {v a b : Solo} {n m : Nat} (ha : advance^[n] v = a) (hb : advance^[m] v = b)
    (waits : a.next? = none) (waits' : b.next? = none) (now : a.hub.now = b.hub.now) : a = b := by
  have shorter : ∀ {a b : Solo} {n m : Nat}, advance^[n] v = a → advance^[m] v = b →
      a.next? = none → a.hub.now = b.hub.now → n ≤ m → a = b := by
    rintro a _ n m ha rfl waits now le
    have split : advance^[m] v = advance^[m - n] a := by
      rw [← ha, ← Function.iterate_add_apply, Nat.sub_add_cancel le]
    have none := eq_zero_of_waits waits (by rw [← split, now])
    rw [split, none]
    rfl
  rcases Nat.le_total n m with le | le
  · exact shorter ha hb waits now le
  · exact (shorter hb ha waits' now.symm le).symm

end Solo

end FeedCapture
