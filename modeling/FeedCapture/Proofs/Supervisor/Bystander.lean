import FeedCapture.Proofs.Fleet.Bystander
import FeedCapture.Proofs.Supervisor.Timely

/-!
# A supervisor with one source more

A supervisor beside the same supervisor with one source more, at an address of its own, no dial of
which leads to a connection.  Whatever happens to one of them, but for the clock and the worker of
the source, happens to the other, and the same is seen of it.

## Main definitions

* `Supervision.Beside` — a supervisor and the same supervisor without one source

The main statements are `Supervision.Beside.rel_act?` and `Supervision.Beside.apartFrom_sights`.
-/

namespace FeedCapture.Supervision

open Supervisor

variable {key : SourceKey} {s t s' t' : Supervision} {a : Act}

/-- The supervisor `t` is the supervisor `s` without the last source, no dial of which leads to a
connection. -/
structure Beside (key : SourceKey) (s t : Supervision) : Prop where
  fleet : Fleet.Beside key s.supervisor.fleet t.supervisor.fleet
  sources : s.supervisor.sources = t.supervisor.sources ++ [key.addr]
  length : t.supervisor.sources.length = key.slot
  new : key.addr ∉ t.supervisor.sources
  started : t.supervisor.started = s.supervisor.started
  stopped : t.supervisor.stopped = s.supervisor.stopped
  calls : t.calls.map StopCall.isFresh = s.calls.map StopCall.isFresh

namespace Beside

/-- Calls of stop that have run before go on in both, each in its own way. -/
theorem later (beside : Beside key s t) (hs : Later s s') (ht : Later t t') : Beside key s' t' := by
  obtain ⟨own, fleet⟩ := hs.fleet
  obtain ⟨own', fleet'⟩ := ht.fleet
  refine ⟨?_, ?_, ?_, ?_, ?_, ?_, ?_⟩
  · rw [fleet, fleet']
    exact beside.fleet.withSender own own'
  · rw [hs.sources, ht.sources]
    exact beside.sources
  · rw [ht.sources]
    exact beside.length
  · rw [ht.sources]
    exact beside.new
  · rw [hs.started, ht.started]
    exact beside.started
  · rw [hs.stopped, ht.stopped]
    exact beside.stopped
  · rw [hs.calls, ht.calls]
    exact beside.calls

/-- What the workers, the receiver and the clock do in both. -/
theorem withFleet (beside : Beside key s t) {f g : Fleet} (fleet : Fleet.Beside key f g) :
    Beside key { s with supervisor := { s.supervisor with fleet := f } }
      { t with supervisor := { t.supervisor with fleet := g } } :=
  ⟨fleet, beside.sources, beside.length, beside.new, beside.started, beside.stopped, beside.calls⟩

/-- The calls of stop have run, or have not, in both. -/
theorem withCalls (beside : Beside key s t) {calls calls' : List StopCall}
    (same : calls'.map StopCall.isFresh = calls.map StopCall.isFresh) :
    Beside key { s with calls := calls } { t with calls := calls' } :=
  ⟨beside.fleet, beside.sources, beside.length, beside.new, beside.started, beside.stopped, same⟩

/-- Both are told to start. -/
theorem start (beside : Beside key s t) (hs : s.Tended) (ht : t.Tended) :
    Beside key { s with supervisor := s.supervisor.start }
      { t with supervisor := t.supervisor.start } := by
  unfold Supervisor.start
  rw [beside.stopped, beside.started]
  split
  · exact ⟨beside.fleet, beside.sources, beside.length, beside.new, beside.started, beside.stopped,
      beside.calls⟩
  · next unstopped =>
    have unstopped : s.supervisor.stopped = false := by simpa using unstopped
    split
    · exact ⟨beside.fleet, beside.sources, beside.length, beside.new, beside.started,
        beside.stopped, beside.calls⟩
    · have own := hs.sender unstopped
      have own' := ht.sender (beside.stopped.trans unstopped)
      have spawned := beside.fleet.spawn beside.length beside.new
      rw [← beside.sources] at spawned
      simp only [own, own', Bool.not_true, Bool.false_eq_true, if_false]
      exact ⟨spawned, beside.sources, beside.length, beside.new, rfl, rfl, beside.calls⟩

/-- The first call of stop tells the workers to stop, in both. -/
theorem signal (beside : Beside key s t) :
    Beside key { s with supervisor := s.supervisor.signal }
      { t with supervisor := t.supervisor.signal } :=
  ⟨beside.fleet.signal.1, beside.sources, beside.length, beside.new, beside.started, rfl,
    beside.calls⟩

theorem setOver (beside : Beside key s t) (n : Nat) :
    Beside key { s with calls := s.calls.set n .finished }
      { t with calls := t.calls.set n .finished } :=
  beside.withCalls (by rw [List.map_set, List.map_set, beside.calls])

/-- A call has been made in both, and has run in both or in neither. -/
theorem rel_calls (beside : Beside key s t) (n : Nat) :
    Option.Rel (fun c c' => c'.isFresh = c.isFresh) s.calls[n]? t.calls[n]? := by
  have same : t.calls[n]?.map StopCall.isFresh = s.calls[n]?.map StopCall.isFresh := by
    rw [← List.getElem?_map, beside.calls, List.getElem?_map]
  cases hc : s.calls[n]? with
  | none =>
    rw [hc, Option.map_none, Option.map_eq_none_iff] at same
    rw [same]
    exact .none
  | some c =>
    rw [hc, Option.map_some] at same
    obtain ⟨c', hc', same⟩ := Option.map_eq_some_iff.1 same
    rw [hc']
    exact .some same

/-- A call of stop runs for the first time, in both. -/
theorem firstPoll (beside : Beside key s t) (n : Nat) :
    Beside key
      { supervisor := (s.supervisor.pollStop .fresh).1
        calls := s.calls.set n (s.supervisor.pollStop .fresh).2 }
      { supervisor := (t.supervisor.pollStop .fresh).1
        calls := t.calls.set n (t.supervisor.pollStop .fresh).2 } := by
  have isOver := beside.setOver n
  have joined : ∀ (s : Supervision) (supervisor : Supervisor) (first : Bool) (slots : List Nat),
      Later { supervisor, calls := s.calls.set n .finished }
        { supervisor := (joinWorkers first 0 slots supervisor).1
          calls := s.calls.set n (joinWorkers first 0 slots supervisor).2 } :=
    fun s supervisor first slots => later_joinWorkers first 0 slots supervisor (by
      rw [List.map_set, List.map_set, isFresh_joinWorkers]
      rfl)
  simp only [pollStop, beside.stopped]
  cases s.supervisor.stopped with
  | true => exact isOver.later (joined s s.supervisor ..) (joined t t.supervisor ..)
  | false =>
    exact isOver.signal.later (joined s s.supervisor.signal ..) (joined t t.supervisor.signal ..)

/-- A call of stop runs in both. -/
theorem poll (beside : Beside key s t) (n : Nat) :
    Option.Rel (Beside key) (s.act? (.poll n)) (t.act? (.poll n)) := by
  have calls := beside.rel_calls n
  cases hc : s.calls[n]? with
  | none =>
    rw [hc] at calls
    generalize hc' : t.calls[n]? = r at calls
    cases calls
    simp only [act?, hc, hc']
    exact .none
  | some c =>
    rw [hc] at calls
    generalize hc' : t.calls[n]? = r at calls
    cases calls with
    | @some _ c' same =>
      have polled : ∀ {s : Supervision} {c : StopCall}, s.calls[n]? = some c →
          s.act? (.poll n) = some { supervisor := (s.supervisor.pollStop c).1
                                    calls := s.calls.set n (s.supervisor.pollStop c).2 } := by
        intro s c hc
        simp [act?, hc]
      rw [polled hc, polled hc']
      cases fresh : c.isFresh with
      | true =>
        rw [StopCall.isFresh_iff.1 fresh, StopCall.isFresh_iff.1 (same.trans fresh)]
        exact .some (beside.firstPoll n)
      | false =>
        exact .some (beside.later (later_of_poll hc fresh (polled hc))
          (later_of_poll hc' (same.trans fresh) (polled hc')))

/-- A call of stop is given up in both. -/
theorem giveUp (beside : Beside key s t) (n : Nat) :
    Option.Rel (Beside key) (s.act? (.giveUp n)) (t.act? (.giveUp n)) := by
  have isOver := beside.setOver n
  have dropped : ∀ (s : Supervision) (c : StopCall),
      Later { s with calls := s.calls.set n .finished }
      { supervisor := s.supervisor.dropStop c, calls := s.calls.set n .finished } := by
    intro s c
    cases c with
    | joining first joined slot => exact ⟨⟨false, rfl⟩, rfl, rfl, rfl, rfl⟩
    | fresh => exact .refl _
    | finished => exact .refl _
  have calls := beside.rel_calls n
  simp only [act?]
  generalize s.calls[n]? = c at calls
  generalize t.calls[n]? = c' at calls
  cases calls with
  | none => exact .none
  | some => exact .some (isOver.later (dropped s _) (dropped t _))

/-- Whatever happens but for the clock and the worker of the source happens in both. -/
theorem rel_act? (beside : Beside key s t) (hs : s.Regular) (ht : t.Regular)
    (other : a ≠ .step key.slot) (untimed : a.isPass = false) :
    Option.Rel (Beside key) (s.act? a) (t.act? a) := by
  cases a with
  | start => exact .some (beside.start hs.tended ht.tended)
  | call =>
    exact .some (beside.withCalls (by rw [List.map_append, List.map_append, beside.calls]))
  | poll n => exact beside.poll n
  | giveUp n => exact beside.giveUp n
  | step slot =>
    have slots : slot ≠ key.slot := fun same => other (congrArg Act.step same)
    have rel := beside.fleet.rel_stepWorker? hs.tended.wired slots
    simp only [act?, actOfFleet?, Fleet.act?]
    generalize s.supervisor.fleet.stepWorker? slot = f at rel
    generalize t.supervisor.fleet.stepWorker? slot = g at rel
    cases rel with
    | none => exact .none
    | some fleet => exact .some (beside.withFleet fleet)
  | receive =>
    have rel := beside.fleet.rel_receive?
    simp only [act?, actOfFleet?, Fleet.act?]
    generalize s.supervisor.fleet.receive? = f at rel
    generalize t.supervisor.fleet.receive? = g at rel
    cases rel with
    | none => exact .none
    | some taken => exact .some (beside.withFleet taken.2)
  | pass time => cases untimed

/-- The same is seen in both, but for when calls of stop return. -/
theorem apartFrom_sights (beside : Beside key s t) (a : Act) :
    apartFrom key.slot (t.sights a) = apartFrom key.slot (s.sights a) := by
  unfold sights
  rw [beside.fleet.hub.common.now]
  cases a with
  | poll n =>
    have fresh : t.calls[n]? = some .fresh ↔ s.calls[n]? = some .fresh := by
      have calls := beside.rel_calls n
      generalize s.calls[n]? = c at calls ⊢
      generalize t.calls[n]? = c' at calls ⊢
      cases calls with
      | none => rfl
      | some same =>
        rw [Option.some.injEq, Option.some.injEq, ← StopCall.isFresh_iff, same,
          StopCall.isFresh_iff]
    have ends : ∀ b : Bool, apartFrom key.slot
        ((if b = true then [Mark.returned n] else []).map
          fun m => (s.supervisor.fleet.hub.now, m)) = [] := fun b => by cases b <;> rfl
    simp only [marks, fresh, List.map_append, apartFrom, List.filter_append]
    exact congrArg _ ((ends _).trans (ends _).symm)
  | receive =>
    have rel := beside.fleet.rel_receive?
    simp only [marks, takes]
    generalize s.supervisor.fleet.receive? = f at rel
    generalize t.supervisor.fleet.receive? = g at rel
    cases rel with
    | none => rfl
    | some taken => simp [taken.1]
  | _ => rfl

end Beside

end FeedCapture.Supervision
