import FeedCapture.Proofs.Worker.Outage
import FeedCapture.Proofs.Worker.Outline

/-!
# Connections that are closed from this side

When its connection is closed, a worker leaves it at once, whether it waits for something to read or
for room on the bus.  A message that waits for room is dropped, and then the worker dials again.  A
worker without a connection goes on at the time at which it would have gone on anyway.

## Main definitions

* `Worker.parting` — what a worker does when its connection is closed
* `Worker.Severed` — what has become of a worker since its connection was closed

The main statements are `parting_of_transition`, `Severed.transition` and `wakes_of_transition`.
-/

namespace FeedCapture.Worker

open Transport

variable {h h' : Hub} {w v : Worker} {s : Step} {t : Instant} {log since : List (Instant × Event)}

/-- What a worker with a connection does when that is closed: it drops the message that waits for
room, if there is one, removes its entry and leaves the connection. -/
def parting (w : Worker) : List Event :=
  (match w.phase with
    | .delivering _ m => [.undelivered m .stopped]
    | _ => []) ++
  [.registry (.unregistered w.key), .link .connected .disconnected, .exited .closed]

theorem leaving_closed (wired : w.Wired h) {link : Link} (open_ : w.phase.open? = some link)
    (connected : w.phase.link = .connected) :
    leaving h w .closed =
      [.registry (.unregistered w.key), .link .connected .disconnected, .exited .closed] := by
  have found : h.registry.get? w.key = some link.close := by rw [wired.entry, open_]; rfl
  simp [leaving, Registry.unregister, found, linkEvents, connected]

/-- A worker whose connection is closed leaves it, and does nothing else. -/
theorem parting_of_transition (step : Transition h w s) (wired : w.Wired h) {link : Link}
    (open_ : w.phase.open? = some link) (closed : h.tokens.isCancelled link.close = true) :
    s.events = parting w ∧ s.worker.phase = .ready := by
  -- a step that takes no notice of the token is not possible
  have other : ∀ {link' : Link} {p : Prop}, w.phase.open? = some link' →
      h.tokens.isCancelled link'.close = false → p := fun open' going => by
    obtain rfl := Option.some.inj (open_.symm.trans open')
    rw [closed] at going
    cases going
  have shut : ∀ {p : Prop}, w.phase.open? = none → p := fun none => by
    cases open_.symm.trans none
  cases step with
  | halt idle stopping =>
    rcases idle with phase | ⟨due, outcome, phase⟩ | ⟨until_, phase⟩
    · exact shut (by rw [phase]; rfl)
    · exact shut (by rw [phase]; rfl)
    · exact shut (by rw [phase]; rfl)
  | dial phase going => exact shut (by rw [phase]; rfl)
  | refused phase going passed => exact shut (by rw [phase]; rfl)
  | dialBroke phase going passed => exact shut (by rw [phase]; rfl)
  | connected phase going passed => exact shut (by rw [phase]; rfl)
  | retry phase going passed => exact shut (by rw [phase]; rfl)
  | closed phase close =>
    refine ⟨?_, phase_leave h w .closed⟩
    rw [events_leave, leaving_closed wired open_ (by rw [phase]; rfl), parting, phase]
    rfl
  | @givenUp link' m phase close =>
    refine ⟨?_, phase_leave _ w .closed⟩
    have wired' : w.Wired { h with bus := h.bus.leave w.key.slot } := wired.of_same rfl rfl rfl rfl rfl
    rw [events_after, events_leave, leaving_closed wired' open_ (by rw [phase]; rfl), parting, phase]
    rfl
  | eof phase going read => exact other (by rw [phase]; rfl) going
  | failed phase going read => exact other (by rw [phase]; rfl) going
  | readBroke phase going read => exact other (by rw [phase]; rfl) going
  | queued phase going read offer => exact other (by rw [phase]; rfl) going
  | parked phase going read offer => exact other (by rw [phase]; rfl) going
  | unwanted phase going read offer => exact other (by rw [phase]; rfl) going
  | idle phase going read passed stale => exact other (by rw [phase]; rfl) going
  | silent phase going read passed fresh => exact other (by rw [phase]; rfl) going
  | abandoned phase going claim => exact other (by rw [phase]; rfl) going
  | handedOver phase going claim => exact other (by rw [phase]; rfl) going

/-- A worker whose connection is closed can leave it. -/
theorem isSome_step?_of_closed {link : Link} (open_ : w.phase.open? = some link)
    (closed : h.tokens.isCancelled link.close = true) : (w.step? h).isSome = true := by
  cases phase : w.phase <;> simp_all [Phase.open?, step?]

/-! ## After the closing -/

/-- What has become of a worker with the connection it had, which was closed at an instant, by what
it has done since: nothing yet, left the connection, or also dialed, and all that at the same
instant. -/
inductive Severed (t : Instant) (w : Worker) (h : Hub) (v : Worker) :
    List (Instant × Event) → Prop
  | pending {link : Link} (same : v = w) (now : h.now = t) (open_ : w.phase.open? = some link)
      (closed : h.tokens.Fired link.close) : Severed t w h v []
  | left (ready : v.phase = .ready) (now : h.now = t) : Severed t w h v (logged t (parting w))
  | dialed (later : List (Instant × Event)) :
      Severed t w h v
        (later ++ (t, .dialed) :: (t, .link .disconnected .dialing) :: logged t (parting w))

namespace Severed

/-- A step takes the worker on, as long as it is not told to stop. -/
theorem transition (severed : Severed t w h v since) (step : Transition h v s) (wired : v.Wired h)
    (going : h.stopping = false) : Severed t w s.hub s.worker (logged h.now s.events ++ since) := by
  have kept := kept_of_transition step
  cases severed with
  | pending same now open_ closed =>
    subst same
    obtain ⟨events, ready⟩ :=
      parting_of_transition step wired open_ (TokenTree.isCancelled_of_fired closed)
    rw [events, now, List.append_nil]
    exact .left ready (kept.now.trans now)
  | left ready now =>
    cases step with
    | halt idle stopping => cases going.symm.trans stopping
    | dial phase going =>
      rw [events_begin h v going, now, ready]
      exact .dialed []
    | _ => simp_all
  | dialed later => exact List.append_assoc .. ▸ .dialed _

/-- What others do makes no difference. -/
theorem of_others (severed : Severed t w h v since) (now : h'.now = h.now)
    (tokens : h.tokens.Extends h'.tokens) : Severed t w h' v since := by
  cases severed with
  | pending same now' open_ closed => exact .pending same (now.trans now') open_ (tokens.fired closed)
  | left ready now' => exact .left ready (now.trans now')
  | dialed later => exact .dialed later

/-- Who waits has dialed. -/
theorem exists_of_waits (severed : Severed t w h v since) (waits : v.step? h = none) :
    ∃ later, since =
      later ++ (t, .dialed) :: (t, .link .disconnected .dialing) :: logged t (parting w) := by
  cases severed with
  | pending same now open_ closed =>
    have some := isSome_step?_of_closed open_ (TokenTree.isCancelled_of_fired closed)
    rw [← same, waits] at some
    cases some
  | left ready now => simp [step?, ready] at waits
  | dialed later => exact ⟨later, rfl⟩

end Severed

/-- The outage begins when the connection is closed. -/
theorem lostAt?_parting (w : Worker) : lostAt? (logged t (parting w) ++ log) = some t := by
  simp [parting, lostAt?]

/-- A worker without a connection that is not told to stop goes on only when its time has come. -/
theorem wakes_of_transition (step : Transition h w s) (going : h.stopping = false)
    (shut : w.isConnected = false) (waited : w.phase ≠ .ready) :
    ∃ wake, w.wakeAt = some wake ∧ wake ≤ h.now := by
  have open_ : ∀ {p : Prop}, w.phase.link = .connected → p := fun connected => by
    simp [isConnected, connected] at shut
  cases outline_of_transition step with
  | stops link stopping => cases going.symm.trans stopping
  | dials phase going => exact absurd phase waited
  | @refused due e phase going passed => exact ⟨due, by rw [wakeAt, phase], passed⟩
  | @connects due peer tuning phase going passed => exact ⟨due, by rw [wakeAt, phase], passed⟩
  | @retries until_ phase going passed => exact ⟨until_, by rw [wakeAt, phase], passed⟩
  | @dialBreaks due reason phase going passed => exact ⟨due, by rw [wakeAt, phase], passed⟩
  | readBreaks link => exact open_ link
  | leaves bus reason first link passing unheard => exact open_ link
  | goesOn link still passing => exact open_ link

end FeedCapture.Worker
