import FeedCapture.Proofs.Fleet.Stopping
import FeedCapture.Supervisor.Run
import Mathlib.Data.List.Basic

/-!
# Joining workers

A call of stop joins the workers in a fixed order, waits for the first one that has not ended, and
reports each breakdown once.

## Main definitions

* `Supervisor.Joins` — the workers that were joined, with one report for each breakdown among them
* `Supervisor.Waits` — what a call of stop waits for

The main statement says that a call joins workers until one has not ended or none is left
(`Joins.joinWorkers`).
-/

namespace FeedCapture.Supervisor

open Worker

/-- The breakdown that an event reports. -/
def Event.crash? : Event → Option String
  | .workerCrashed reason => some reason
  | _ => none

/-- The breakdowns that a history reports, the earliest first; the history has the latest first. -/
def crashReports (past : List (Instant × Event)) : List String :=
  past.reverse.filterMap fun e => e.2.crash?

theorem crashReports_cons (e : Instant × Event) (past : List (Instant × Event)) :
    crashReports (e :: past) = crashReports past ++ e.2.crash?.toList := by
  cases h : e.2.crash? <;> simp [crashReports, h]

/-! ## Ends and breakdowns -/

theorem crashOf_eq (s : Supervisor) (slot : Nat) :
    s.crashOf slot = s.fleet.workers[slot]?.bind fun w => w.phase.crash? := by
  unfold crashOf
  cases hw : s.fleet.workers[slot]? with
  | none => rfl
  | some w =>
    obtain ⟨key, phase, outage, dials⟩ := w
    cases phase <;> rfl

theorem crashOf_congr {s t : Supervisor} {slot : Nat}
    (h : t.fleet.workers[slot]? = s.fleet.workers[slot]?) : t.crashOf slot = s.crashOf slot := by
  rw [crashOf_eq, crashOf_eq, h]

theorem hasEnded_congr {s t : Supervisor} {slot : Nat}
    (h : t.fleet.workers[slot]? = s.fleet.workers[slot]?) :
    t.hasEnded slot = s.hasEnded slot := by
  rw [hasEnded, hasEnded, h]

/-! ## Joining -/

/-- Of the workers in some slots, those that were joined have ended, and since the time of an
earlier history there is one report for each breakdown among them. -/
structure Joins (all : List Nat) (earlier : List (Instant × Event)) (s : Supervisor)
    (joined rest : List Nat) : Prop where
  split : all = joined ++ rest
  ended : ∀ slot ∈ joined, s.hasEnded slot = true
  reports : ∃ new, s.past = new ++ earlier ∧ crashReports new = joined.filterMap s.crashOf

/-- A call of stop waits for the next worker, or it is over and the bus is closed. -/
inductive Waits (s : Supervisor) : StopCall → List Nat → Prop
  | finished (left : s.unjoined = []) (closed : s.fleet.hub.bus.ownSender = false) :
      Waits s .finished []
  | joining {first : Bool} {joined slot : Nat} {rest : List Nat}
      (left : s.unjoined = rest.reverse) : Waits s (.joining first joined slot) (slot :: rest)

variable {all joined rest : List Nat} {earlier : List (Instant × Event)} {s : Supervisor}

/-- What is noted besides breakdowns changes nothing. -/
theorem Joins.note (h : Joins all earlier s joined rest) {e : Event} (other : e.crash? = none) :
    Joins all earlier (s.note e) joined rest := by
  obtain ⟨new, past, reports⟩ := h.reports
  refine ⟨h.split, h.ended, (s.fleet.hub.now, e) :: new, by simp [Supervisor.note, past], ?_⟩
  rw [crashReports_cons, other, reports]
  exact List.append_nil _

@[simp] theorem stopped_noteJoin (s : Supervisor) (slot : Nat) :
    (s.noteJoin slot).stopped = s.stopped := by
  unfold Supervisor.noteJoin; split <;> rfl

@[simp] theorem started_noteJoin (s : Supervisor) (slot : Nat) :
    (s.noteJoin slot).started = s.started := by
  unfold Supervisor.noteJoin; split <;> rfl

@[simp] theorem fleet_noteJoin (s : Supervisor) (slot : Nat) :
    (s.noteJoin slot).fleet = s.fleet := by
  unfold Supervisor.noteJoin; split <;> rfl

/-- Joining the next worker notes its breakdown, if it broke down. -/
theorem Joins.noteJoin {slot : Nat} (h : Joins all earlier s joined (slot :: rest))
    (ended : s.hasEnded slot = true) :
    Joins all earlier (s.noteJoin slot) (joined ++ [slot]) rest := by
  have crashes : (s.noteJoin slot).crashOf = s.crashOf := by
    funext other
    exact crashOf_congr (by rw [fleet_noteJoin])
  have ends : (s.noteJoin slot).hasEnded = s.hasEnded := by
    funext other
    exact hasEnded_congr (by rw [fleet_noteJoin])
  obtain ⟨new, past, reports⟩ := h.reports
  refine ⟨by simp [h.split], ?_, ?_⟩
  · intro other ho
    rw [ends]
    rcases List.mem_append.1 ho with ho | ho
    · exact h.ended other ho
    · rw [List.mem_singleton.1 ho]
      exact ended
  · rw [crashes]
    unfold Supervisor.noteJoin
    split
    · next reason crash =>
      refine ⟨(s.fleet.hub.now, .workerCrashed reason) :: new, by simp [Supervisor.note, past], ?_⟩
      simp [crashReports_cons, List.filterMap_append, crash, reports, Event.crash?]
    · next sound => exact ⟨new, past, by simp [List.filterMap_append, sound, reports]⟩

/-- What does not concern the joined workers and the history changes nothing. -/
theorem Joins.congr {t : Supervisor} (h : Joins all earlier s joined rest)
    (workers : ∀ slot ∈ joined, t.fleet.workers[slot]? = s.fleet.workers[slot]?)
    (past : t.past = s.past) : Joins all earlier t joined rest := by
  refine ⟨h.split, fun slot hslot => ?_, ?_⟩
  · rw [hasEnded_congr (workers slot hslot)]
    exact h.ended slot hslot
  · rw [past, List.filterMap_congr fun slot hslot => crashOf_congr (workers slot hslot)]
    exact h.reports

@[simp] theorem stopped_joinWorkers (first : Bool) (count : Nat) (slots : List Nat)
    (s : Supervisor) : (joinWorkers first count slots s).1.stopped = s.stopped := by
  induction slots generalizing s count with
  | nil => rfl
  | cons slot rest ih =>
    simp only [Supervisor.joinWorkers]
    split
    · simp [ih]
    · rfl

@[simp] theorem started_joinWorkers (first : Bool) (count : Nat) (slots : List Nat)
    (s : Supervisor) : (joinWorkers first count slots s).1.started = s.started := by
  induction slots generalizing s count with
  | nil => rfl
  | cons slot rest ih =>
    simp only [Supervisor.joinWorkers]
    split
    · simp [ih]
    · rfl

/-- Joining leaves the fleet alone, but for closing the bus in the end. -/
theorem fleet_joinWorkers (first : Bool) (count : Nat) (slots : List Nat) (s : Supervisor) :
    (joinWorkers first count slots s).1.fleet = s.fleet ∨
      (joinWorkers first count slots s).1.fleet = s.fleet.closeBus.1 := by
  induction slots generalizing s count with
  | nil => exact .inr rfl
  | cons slot rest ih =>
    simp only [Supervisor.joinWorkers]
    split
    · simpa using ih (count + 1) (s.noteJoin slot)
    · exact .inl rfl

/-- A call of stop joins workers until one has not ended or none is left. -/
theorem Joins.joinWorkers (first : Bool) (count : Nat) (h : Joins all earlier s joined rest) :
    ∃ joined' rest',
      Joins all earlier (joinWorkers first count rest s).1 joined' rest' ∧
      Waits (joinWorkers first count rest s).1 (joinWorkers first count rest s).2 rest' ∧
      ∀ slot ∈ rest'.head?, s.hasEnded slot = false := by
  induction rest generalizing s joined count with
  | nil =>
    refine ⟨joined, [], ?_, .finished rfl rfl, by simp⟩
    have closed : Joins all earlier
        { s with unjoined := [], fleet := s.fleet.closeBus.1 } joined [] :=
      h.congr (fun _ _ => rfl) rfl
    refine closed.note ?_
    split <;> rfl
  | cons slot rest ih =>
    simp only [Supervisor.joinWorkers]
    split
    · next ended =>
      have later := ih (count + 1) (h.noteJoin ended)
      have same : (s.noteJoin slot).hasEnded = s.hasEnded := by
        funext other
        exact hasEnded_congr (by simp)
      rw [same] at later
      exact later
    · next going =>
      exact ⟨joined, slot :: rest, h.congr (fun _ _ => rfl) rfl, .joining rfl, by simpa using going⟩

end FeedCapture.Supervisor
