import FeedCapture.Proofs.Fleet.Logs
import FeedCapture.Proofs.Fleet.Stopping
import FeedCapture.Proofs.Worker.Outline

/-!
# Retries, told from the log

A worker counts the dials that failed in a row, and its count agrees with its log, as far as 64 bits
go.  After a failed dial it pauses for a fixed time, after the end of a connection it does not pause,
and then it dials again, unless it is stopped before.

## Main definitions

* `Worker.failuresInRow` — how many dials failed since the last connection, by the log
* `Worker.Event.redialsAt?` — when the worker is to dial again after an event
* `Worker.Redials` — what has become of a worker that is to dial again
* `Worker.Event.breaks` — a dial or a read breaks down altogether

The main statements are `failedDials_of_transition`, `redials_of_events` and `Redials.transition`,
and `breaks_of_transition` for the workers that break down.
-/

namespace FeedCapture.Worker

open Transport

/-- How many dials failed since the last one that succeeded, by the log. -/
def failuresInRow : List (Instant × Event) → Nat
  | [] => 0
  | (_, .dialEnded (.refused _)) :: log => failuresInRow log + 1
  | (_, .dialEnded (.connected _ _)) :: _ => 0
  | _ :: log => failuresInRow log

variable {h : Hub} {w : Worker} {s : Step} {t now due : Instant} {es : List Event}
  {log : List (Instant × Event)}

/-! ## The count of failures -/

theorem failuresInRow_cons {e : Event} (still : e.settles = false) :
    failuresInRow ((t, e) :: log) = failuresInRow log := by
  cases e <;> first | rfl | cases still

/-- While no dial ends, none fails. -/
theorem failuresInRow_logged (still : ∀ e ∈ es, e.settles = false) :
    failuresInRow (logged t es ++ log) = failuresInRow log := by
  induction es generalizing log with
  | nil => rfl
  | cons e es ih =>
    obtain ⟨first, rest⟩ := List.forall_mem_cons.1 still
    rw [logged_cons, List.append_assoc, ih rest]
    exact failuresInRow_cons first

/-- What follows the end of a dial does not change how it is counted. -/
theorem failuresInRow_logged_cons {e : Event} (still : ∀ e ∈ es, e.settles = false) :
    failuresInRow (logged t (e :: es) ++ log) = failuresInRow ((t, e) :: log) := by
  rw [logged_cons, List.append_assoc, failuresInRow_logged still, List.singleton_append]

theorem failedDials_leave (h : Hub) (w : Worker) (reason : ReadExit) :
    (leave h w reason).worker.failedDials = w.failedDials := by
  by_cases closed : reason = .busClosed <;> simp [leave, closed, stop]

/-- A step keeps the count of a worker in agreement with its log. -/
theorem failedDials_of_transition (counts : w.failedDials = .ofNat (failuresInRow log))
    (step : Transition h w s) :
    s.worker.failedDials = .ofNat (failuresInRow (logged t s.events ++ log)) := by
  cases outline_of_transition step with
  | stops link stopping =>
    rw [failuresInRow_logged (settles_of_plain (plain_stop h w)), ← counts]
    rfl
  | dials phase going =>
    rw [failuresInRow_logged (settles_begin going), ← counts]
    simp [begin, going]
  | @refused due e phase going passed =>
    rw [events_after, failuresInRow_logged_cons (settles_failDial e)]
    show w.failedDials + 1 = .ofNat (failuresInRow log + 1)
    rw [counts, UInt64.ofNat_add]
    rfl
  | @connects due peer tuning phase going passed =>
    rw [events_after, failuresInRow_logged_cons (settles_connect peer tuning)]
    rfl
  | retries phase going passed => exact counts
  | @dialBreaks due reason phase going passed =>
    rw [events_after, failuresInRow_logged_cons (settles_of_plain (plain_crash h w reason))]
    exact counts
  | @readBreaks reason link =>
    rw [events_after, failuresInRow_logged_cons (settles_of_plain (plain_crash h w reason))]
    exact counts
  | leaves bus reason first link passing unheard =>
    rw [events_afterAll, logged_append, List.append_assoc,
      failuresInRow_logged (settles_of_plain (plain_leave _ _ _)),
      failuresInRow_logged (settles_of_passing passing), ← counts]
    exact failedDials_leave _ w reason
  | goesOn link still passing =>
    rw [failuresInRow_logged (settles_of_passing passing), ← counts]

/-! ## Dialing again -/

/-- When the worker is to dial again after an event. -/
def Event.redialsAt? (policy : Policy) (now : Instant) : Event → Option Instant
  | .dialFailed _ _ _ => some (now + policy.reconnectDelay)
  | .exited reason => if reason = .busClosed then none else some now
  | _ => none

/-- An event that differs from all events but the last one is the last one. -/
theorem eq_last_of_append {α : Type} {xs pre post : List α} {x y : α} {p : α → Prop}
    (none : ∀ z ∈ xs, ¬p z) (hy : p y) (split : xs ++ [x] = pre ++ y :: post) :
    x = y ∧ post = [] := by
  rcases mem_or_mem_of_append split with ⟨rest, -, last⟩ | ⟨rest, rfl, -⟩
  · rcases List.append_eq_singleton_iff.1 last.symm with ⟨-, same⟩ | ⟨-, same⟩
    · obtain ⟨rfl, rfl⟩ := List.cons.inj same
      exact ⟨rfl, rfl⟩
    · cases same
  · exact absurd hy (none y (by simp))

section

variable {policy : Policy} {e : Event}

theorem redialsAt?_of_plain (plain : e.plain = true) (quiet : e.quiet = true) :
    e.redialsAt? policy now = none := by
  cases e with
  | exited reason => cases quiet
  | dialFailed failure attempt retryIn => cases plain
  | _ => rfl

theorem redialsAt?_of_passing (passing : e.passing = true) : e.redialsAt? policy now = none := by
  cases e <;> first | rfl | cases passing

theorem redialsAt?_linkEvents (source target : LinkState) :
    ∀ e ∈ linkEvents source target, e.redialsAt? policy now = none := fun e mem =>
  redialsAt?_of_plain (plain_linkEvents _ _ e mem) (quiet_linkEvents _ _ e mem)

theorem redialsAt?_connect (h : Hub) (w : Worker) (peer : List (Duration × Peer))
    (tuning : Option Tuning) :
    ∀ e ∈ (connect h w peer tuning).events, e.redialsAt? policy now = none := by
  rw [events_connect]
  intro e mem
  simp only [List.mem_append, List.mem_cons, List.mem_map] at mem
  rcases mem with mem | rfl | ⟨notice, -, rfl⟩ | mem
  · exact redialsAt?_of_plain (plain_tune _ _ e mem) (quiet_tune _ _ e mem)
  · rfl
  · rfl
  · exact redialsAt?_linkEvents _ _ e mem

end

/-- What has become of a worker that is to dial again at an instant, by what it has done since: it
pauses, is about to dial, has dialed then, or was stopped before. -/
inductive Redials (due now : Instant) (w : Worker) : List (Instant × Event) → Prop
  | pausing (phase : w.phase = .pausing due) (early : now ≤ due) : Redials due now w []
  | ready (phase : w.phase = .ready) (here : now = due) : Redials due now w []
  | dialed (since : List (Instant × Event)) :
      Redials due now w (since ++ [(due, .dialed), (due, .link .disconnected .dialing)])
  | stopped (since : List (Instant × Event)) {t : Instant} (early : t ≤ due) :
      Redials due now w (since ++ [(t, .stopped), (t, .link .disconnected .stopped)])

/-- After a failed dial or the end of a connection a worker does nothing more in the same step, and
pauses or is about to dial. -/
theorem redials_of_events {e : Event} {pre post : List Event} (step : Transition h w s)
    (events : s.events = pre ++ e :: post) (again : e.redialsAt? h.policy h.now = some due) :
    post = [] ∧ Redials due h.now s.worker [] := by
  have mem : e ∈ s.events := by simp [events]
  have other : ∀ {es : List Event} {p : Prop}, e ∈ es →
      (∀ e ∈ es, e.redialsAt? h.policy h.now = none) → p := fun mem none => by
    cases again.symm.trans (none e mem)
  have last : ∀ {xs : List Event} {x : Event},
      (∀ e ∈ xs, e.redialsAt? h.policy h.now = none) → xs ++ [x] = pre ++ e :: post →
      x = e ∧ post = [] := fun calm split =>
    eq_last_of_append (p := fun e => e.redialsAt? h.policy h.now ≠ none)
      (fun e mem loud => loud (calm e mem)) (by simp [again]) split
  cases outline_of_transition step with
  | stops link stopping =>
    exact other mem fun e mem =>
      redialsAt?_of_plain (plain_stop h w e mem) (quiet_stop h w e mem)
  | dials phase going =>
    rw [events_begin h w going] at mem
    rcases List.mem_append.1 mem with mem | mem
    · exact other mem (redialsAt?_linkEvents _ _)
    · exact other mem (List.forall_mem_singleton.2 rfl)
  | @refused due' failure phase going passed =>
    obtain ⟨rfl, rfl⟩ := last
      (List.forall_mem_cons.2 ⟨rfl, redialsAt?_linkEvents w.phase.link .disconnected⟩) events
    obtain rfl : h.now + h.policy.reconnectDelay = due := Option.some.inj again
    exact ⟨rfl, .pausing rfl (Nat.le_add_right ..)⟩
  | @connects due' peer tuning phase going passed =>
    exact other mem (List.forall_mem_cons.2 ⟨rfl, redialsAt?_connect h w peer tuning⟩)
  | retries phase going passed => cases mem
  | @dialBreaks due' reason phase going passed =>
    refine other mem (List.forall_mem_cons.2 ⟨rfl, fun e mem => ?_⟩)
    exact redialsAt?_of_plain (plain_crash h w reason e mem) (quiet_crash h w reason e mem)
  | @readBreaks reason link =>
    refine other mem (List.forall_mem_cons.2 ⟨rfl, fun e mem => ?_⟩)
    exact redialsAt?_of_plain (plain_crash h w reason e mem) (quiet_crash h w reason e mem)
  | leaves bus reason first link passing unheard =>
    have early : ∀ e ∈ first ++ ((h.registry.unregister w.key).2.map Event.registry ++
        linkEvents w.phase.link .disconnected), e.redialsAt? h.policy h.now = none := by
      intro e mem
      rcases List.mem_append.1 mem with mem | mem
      · exact redialsAt?_of_passing (passing e mem)
      · rcases List.mem_append.1 mem with mem | mem
        · exact redialsAt?_of_plain (plain_unregister _ _ e mem) (quiet_notices _ e mem)
        · exact redialsAt?_linkEvents _ _ e mem
    rw [events_afterAll, events_leave, leaving, ← List.append_assoc, ← List.append_assoc] at events
    by_cases closed : reason = .busClosed
    · rw [if_pos closed] at events
      have mem : e ∈ pre ++ e :: post := by simp
      rw [← events] at mem
      rcases List.mem_append.1 mem with mem | mem
      · rcases List.mem_append.1 mem with mem | mem
        · exact other mem early
        · exact other mem (List.forall_mem_singleton.2 (by simp [Event.redialsAt?, closed]))
      · exact other mem (List.forall_mem_cons.2 ⟨rfl, List.forall_mem_singleton.2 rfl⟩)
    · rw [if_neg closed, List.append_nil] at events
      obtain ⟨rfl, rfl⟩ := last early events
      refine ⟨rfl, .ready ?_ ?_⟩
      · rw [worker_afterAll, phase_leave, if_neg closed]
      · simpa [Event.redialsAt?, closed] using again
  | goesOn link still passing => exact other mem fun e mem => redialsAt?_of_passing (passing e mem)

namespace Redials

variable {since : List (Instant × Event)}

/-- Whatever steps the worker takes, it dials again in time. -/
theorem transition (redials : Redials due h.now w since) (step : Transition h w s) :
    Redials due h.now s.worker (logged h.now s.events ++ since) := by
  have halts : w.phase.link = .disconnected → h.now ≤ due →
      Redials due h.now (stop h w).worker (logged h.now (stop h w).events ++ []) := by
    intro link early
    have told : (stop h w).events = [.link .disconnected .stopped, .stopped] := by
      simp [stop, linkEvents, link]
    rw [told]
    exact .stopped [] early
  cases redials with
  | pausing phase early =>
    have link : w.phase.link = .disconnected := by rw [phase]; rfl
    cases step with
    | halt idle stopping => exact halts link early
    | @retry until_ phase' going passed =>
      obtain rfl : due = until_ := Phase.pausing.inj (phase.symm.trans phase')
      exact .ready rfl (Nat.le_antisymm early passed)
    | _ => simp_all
  | ready phase here =>
    have link : w.phase.link = .disconnected := by rw [phase]; rfl
    cases step with
    | halt idle stopping => exact halts link (Nat.le_of_eq here)
    | dial phase' going =>
      rw [events_begin h w going, link, ← here]
      exact .dialed []
    | _ => simp_all
  | dialed since => exact List.append_assoc .. ▸ .dialed _
  | stopped since early => exact List.append_assoc .. ▸ .stopped _ early

/-- Time passes no further than to the end of the pause. -/
theorem later (redials : Redials due h.now w since) (waits : w.step? h = none)
    (wakes : ∀ wake, w.wakeAt = some wake → t ≤ wake) : Redials due t w since := by
  cases redials with
  | pausing phase early => exact .pausing phase (wakes due (by simp [wakeAt, phase]))
  | ready phase here => simp [step?, phase] at waits
  | dialed since => exact .dialed since
  | stopped since early => exact .stopped since early

end Redials

/-! ## Breaking down -/

/-- A dial or a read breaks down altogether. -/
def Event.breaks : Event → Bool
  | .dialEnded (.breaksDown _) => true
  | .read (.brokeDown _) => true
  | _ => false

/-- A worker breaks down only with a dial or a read. -/
theorem breaks_of_transition (step : Transition h w s) (broken : s.worker.phase.crash? ≠ none) :
    ∃ e ∈ s.events, e.breaks = true := by
  cases outline_of_transition step with
  | stops link stopping => exact absurd rfl broken
  | dials phase going =>
    refine absurd (crash?_of_link ?_) broken
    simp only [begin, going]
    cases (h.network.dial w.key.addr).1 <;> simp [Phase.link]
  | refused phase going passed => exact absurd rfl broken
  | connects phase going passed => exact absurd rfl broken
  | retries phase going passed => exact absurd rfl broken
  | dialBreaks phase going passed => exact ⟨_, List.mem_cons_self, rfl⟩
  | readBreaks link => exact ⟨_, List.mem_cons_self, rfl⟩
  | leaves bus reason first link passing unheard =>
    refine absurd ?_ broken
    rw [worker_afterAll, phase_leave]
    split <;> rfl
  | goesOn link still passing =>
    refine absurd (crash?_of_link ?_) broken
    simp [still]

end FeedCapture.Worker
