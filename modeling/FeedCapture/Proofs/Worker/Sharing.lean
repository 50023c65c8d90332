import FeedCapture.Passage
import FeedCapture.Proofs.Worker.Wiring

/-!
# What a worker does to what it shares

A step makes at most one token and cancels none, takes at most the next dial of the worker's own
address, and changes the line on the bus at the worker's own place only: the worker is in line when
it has a message in hand.

## Main definitions

* `Worker.Lines` — what a step does to the line on the bus

The main statements are `shared_of_transition` and `lines_of_transition`.
-/

namespace FeedCapture.Worker

open Transport

variable {h : Hub} {w : Worker} {s : Step}

/-! ## Tokens and dials -/

/-- A step makes a token when there is a new connection, and takes what is planned for the worker's
own address when it dials. -/
theorem shared_of_transition (step : Transition h w s) (wired : w.Wired h) :
    s.hub.tokens = h.tokens ∧
        (s.hub.network = h.network ∨ s.hub.network = (h.network.dial w.key.addr).2) ∨
      s.hub.tokens = (h.tokens.child h.stop).1 ∧ s.hub.network = h.network := by
  have left : ∀ (bus : Bus Nat) (reason : ReadExit),
      (leave { h with bus } w reason).hub.tokens = h.tokens ∧
        (leave { h with bus } w reason).hub.network = h.network := by
    intro bus reason
    unfold leave
    dsimp only
    split <;> simp
  have stays : ∀ {s : Step}, s.hub.tokens = h.tokens ∧ s.hub.network = h.network →
      s.hub.tokens = h.tokens ∧
          (s.hub.network = h.network ∨ s.hub.network = (h.network.dial w.key.addr).2) ∨
        s.hub.tokens = (h.tokens.child h.stop).1 ∧ s.hub.network = h.network :=
    fun same => .inl ⟨same.1, .inl same.2⟩
  cases step with
  | dial phase going =>
    rw [hub_begin h w going]
    exact .inl ⟨rfl, .inr rfl⟩
  | refused phase going passed => exact stays (by simp [failDial])
  | connected phase going passed =>
    have free : h.registry.get? w.key = none := by
      rw [wired.entry, phase]
      rfl
    exact .inr (by simp [connect, Registry.register, free])
  | closed phase close => exact stays (left h.bus _)
  | eof phase going read => exact stays (left h.bus _)
  | failed phase going read => exact stays (left h.bus _)
  | queued phase going read offer => exact stays (by simp [delivered])
  | unwanted phase going read offer => exact stays (left h.bus _)
  | idle phase going read passed stale => exact stays (left h.bus _)
  | givenUp phase close => exact stays (left _ _)
  | abandoned phase going claim => exact stays (left _ _)
  | handedOver phase going claim => exact stays (by simp [delivered])
  | _ => exact stays ⟨rfl, rfl⟩

/-- No step cancels a token. -/
theorem clear_of_transition (step : Transition h w s) (wired : w.Wired h)
    (clear : h.tokens.Clear) : s.hub.tokens.Clear := by
  rcases shared_of_transition step wired with ⟨same, -⟩ | ⟨child, -⟩
  · exact same ▸ clear
  · exact child ▸ clear.add _

/-- No step tells workers to stop. -/
theorem stopping_of_transition (step : Transition h w s) (wired : w.Wired h)
    (known : h.stop < h.tokens.nodes.size) (tokens : h.tokens.Clear ∨ h.tokens.Fired h.stop) :
    s.hub.stopping = h.stopping := by
  rcases tokens with clear | fired
  · exact (TokenTree.isCancelled_of_clear (clear_of_transition step wired clear) _).trans
      (TokenTree.isCancelled_of_clear clear _).symm
  · have mild := (wired_of_transition step wired known).2
    have fired' : s.hub.tokens.Fired s.hub.stop := mild.stop ▸ mild.tokens.fired fired
    exact (TokenTree.isCancelled_of_fired fired').trans (TokenTree.isCancelled_of_fired fired).symm

/-- What is planned for other addresses stays. -/
theorem plan_of_transition (step : Transition h w s) (wired : w.Wired h) {addr : String}
    (hne : addr ≠ w.key.addr) : s.hub.network.plan addr = h.network.plan addr := by
  rcases shared_of_transition step wired with ⟨-, same | dialed⟩ | ⟨-, same⟩
  · rw [same]
  · rw [dialed, Network.plan_dial_of_ne _ _ hne]
  · rw [same]

/-! ## The worker's place in line -/

/-- What a step does to the line on the bus: the worker joins it with a message, leaves it, or was
not in line and still is not. -/
inductive Lines (h : Hub) (w : Worker) (s : Step) : Prop
  | aside (before : w.phase.inHand = none) (after : s.worker.phase.inHand = none)
      (line : s.hub.bus.line = h.bus.line)
  | joins (before : w.phase.inHand = none) (after : s.worker.phase.inHand ≠ none)
      (line : s.hub.bus.line = h.bus.line ++ [w.key.slot])
  | leaves (before : w.phase.inHand ≠ none) (after : s.worker.phase.inHand = none)
      (line : s.hub.bus.line = h.bus.line.erase w.key.slot)

namespace Lines

variable (lines : Lines h w s) (apart : h.bus.line.Nodup)

include lines apart

/-- The others keep their places. -/
theorem mem_iff_of_ne {other : Nat} (hne : other ≠ w.key.slot) :
    other ∈ s.hub.bus.line ↔ other ∈ h.bus.line := by
  cases lines with
  | aside _ _ line => rw [line]
  | joins _ _ line => simp [line, hne]
  | leaves _ _ line => simp [line, apart.mem_erase_iff, hne]

variable (held : w.key.slot ∈ h.bus.line ↔ w.phase.inHand ≠ none)

include held

/-- The worker is in line when it has a message in hand, if it was so before. -/
theorem mem_iff_self : w.key.slot ∈ s.hub.bus.line ↔ s.worker.phase.inHand ≠ none := by
  cases lines with
  | aside before after line => simp [line, held, before, after]
  | joins _ after line => simp [line, after]
  | leaves _ after line => simp [line, apart.mem_erase_iff, after]

/-- Nobody gets a second place. -/
theorem nodup : s.hub.bus.line.Nodup := by
  cases lines with
  | aside _ _ line => exact line ▸ apart
  | joins before _ line =>
    have absent : w.key.slot ∉ h.bus.line := fun mem => held.1 mem before
    rw [line]
    exact List.nodup_append.2 ⟨apart, by simp, by
      intro a ha b hb
      rw [List.mem_singleton.1 hb]
      rintro rfl
      exact absent ha⟩
  | leaves _ _ line => exact line ▸ apart.erase _

end Lines

/-- A worker without a connection has no message in hand. -/
theorem inHand_of_open? {phase : Phase} (shut : phase.open? = none) : phase.inHand = none := by
  cases phase <;> first | rfl | cases shut

/-- While somebody receives, a step keeps the bus tidy and changes the line at the worker's place
only. -/
theorem lines_of_transition (step : Transition h w s) (alive : h.bus.receiving = true)
    (tidy : h.bus.Tidy) : s.hub.bus.Tidy ∧ Lines h w s := by
  have still : ∀ {s : Step}, w.phase.inHand = none → s.worker.phase.inHand = none →
      s.hub.bus = h.bus → s.hub.bus.Tidy ∧ Lines h w s := by
    intro s before after bus
    rw [bus]
    exact ⟨tidy, .aside before after (by rw [bus])⟩
  cases step with
  | halt idle stopping =>
    refine still ?_ rfl rfl
    rcases idle with phase | ⟨due, outcome, phase⟩ | ⟨until_, phase⟩ <;> rw [phase] <;> rfl
  | dial phase going =>
    exact still (by rw [phase]; rfl) (inHand_of_open? (open?_begin h w)) (bus_begin h w)
  | @refused due e phase going passed =>
    exact still (by rw [phase]; rfl) rfl (bus_failDial h w e)
  | dialBroke phase going passed => exact still (by rw [phase]; rfl) rfl rfl
  | @connected due peer tuning phase going passed =>
    exact still (by rw [phase]; rfl) rfl (bus_connect h w peer tuning)
  | retry phase going passed => exact still (by rw [phase]; rfl) rfl rfl
  | closed phase close =>
    exact still (by rw [phase]; rfl) (inHand_of_open? (open?_leave h w _)) (bus_leave h w _)
  | eof phase going read =>
    exact still (by rw [phase]; rfl) (inHand_of_open? (open?_leave h w _)) (bus_leave h w _)
  | failed phase going read =>
    exact still (by rw [phase]; rfl) (inHand_of_open? (open?_leave h w _)) (bus_leave h w _)
  | readBroke phase going read => exact still (by rw [phase]; rfl) rfl rfl
  | @queued link deadline c data bus phase going read offer =>
    have bus_eq : bus = (h.bus.offer (w.message h data)).1 := by rw [offer]
    have line := Bus.line_offer h.bus (w.message h data)
    rw [← bus_eq] at line
    refine ⟨?_, .aside (by rw [phase]; rfl) rfl ?_⟩
    · rw [hub_after, bus_delivered, bus_eq]
      exact tidy.offer _
    · rw [hub_after, bus_delivered]
      exact line
  | @parked link deadline c data bus phase going read offer =>
    obtain ⟨-, full, rfl⟩ := Bus.offer_eq_full offer
    exact ⟨tidy.park full _, .joins (by rw [phase]; rfl) (by simp [Phase.inHand])
      (Bus.line_park ..)⟩
  | unwanted phase going read offer =>
    exact absurd (Bus.offer_eq_closed offer).1 (by simp [alive])
  | idle phase going read passed stale =>
    exact still (by rw [phase]; rfl) (inHand_of_open? (open?_leave h w _)) (bus_leave h w _)
  | silent phase going read passed fresh => exact still (by rw [phase]; rfl) rfl rfl
  | givenUp phase close =>
    refine ⟨?_, .leaves (by simp [phase, Phase.inHand]) (inHand_of_open? (open?_leave ..)) ?_⟩
    · rw [hub_after, bus_leave]
      exact tidy.leave _
    · rw [hub_after, bus_leave]
      exact Bus.line_leave ..
  | @abandoned link m bus phase going claim =>
    exact absurd (congrArg Prod.snd claim) (Bus.claim_ne_closed alive _ _)
  | @handedOver link m bus phase going claim =>
    have bus_eq : bus = (h.bus.claim w.key.slot m).1 := by rw [claim]
    refine ⟨?_, .leaves (by simp [phase, Phase.inHand]) rfl ?_⟩
    · rw [bus_delivered, bus_eq]
      exact tidy.claim alive _ _
    · rw [bus_delivered]
      exact Bus.line_of_claim_eq_delivered claim

end FeedCapture.Worker
