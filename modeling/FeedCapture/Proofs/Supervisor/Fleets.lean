import FeedCapture.Proofs.Supervisor.Reachable

/-!
# What a supervisor does to its fleet

Whatever happens to a supervisor, its fleet goes through a run in which nobody gives up receiving,
but for the moment at which its workers are started.

## Main definitions

* `Supervision.Moves` — what an act of a supervisor is for its fleet

The main statement says that what no act of a fleet breaks holds in every state that a supervisor
can reach (`Supervision.preserved_of_run?`).
-/

namespace FeedCapture

/-- The act only tells the fleet something. -/
def Fleet.Act.isControl : Fleet.Act → Bool
  | .stop => true
  | .closeAll => true
  | .closeBus => true
  | _ => false

/-- A call of stop only tells the fleet something. -/
theorem Supervisor.exists_run?_pollStop (s : Supervisor) (call : StopCall) :
    ∃ acts : List Fleet.Act, (∀ a ∈ acts, a.isControl = true) ∧
      s.fleet.run? acts = some (s.pollStop call).1.fleet := by
  have join : ∀ (first : Bool) (count : Nat) (slots : List Nat) (s : Supervisor),
      ∃ acts : List Fleet.Act, (∀ a ∈ acts, a.isControl = true) ∧
        s.fleet.run? acts = some (Supervisor.joinWorkers first count slots s).1.fleet := by
    intro first count slots s
    rcases fleet_joinWorkers first count slots s with same | same
    · exact ⟨[], by simp, by rw [same]; rfl⟩
    · exact ⟨[.closeBus], by simp [Fleet.Act.isControl], by rw [same]; rfl⟩
  cases call with
  | fresh =>
    simp only [Supervisor.pollStop]
    split
    · obtain ⟨acts, control, ran⟩ := join (!s.stopped) 0 s.signal.unjoined.reverse s.signal
      refine ⟨.stop :: .closeAll :: acts, ?_, ran⟩
      simpa [Fleet.Act.isControl] using control
    · exact join _ _ _ _
  | joining first count slot =>
    simp only [Supervisor.pollStop]
    split
    · obtain ⟨acts, control, ran⟩ :=
        join first (count + 1) (s.noteJoin slot).unjoined.reverse (s.noteJoin slot)
      exact ⟨acts, control, by rwa [fleet_noteJoin] at ran⟩
    · exact ⟨[], by simp, rfl⟩
  | finished => exact ⟨[], by simp, rfl⟩

namespace Supervisor

@[simp] theorem sources_noteJoin (s : Supervisor) (slot : Nat) :
    (s.noteJoin slot).sources = s.sources := by
  unfold noteJoin
  split <;> rfl

@[simp] theorem sources_joinWorkers (first : Bool) (count : Nat) (slots : List Nat)
    (s : Supervisor) : (joinWorkers first count slots s).1.sources = s.sources := by
  induction slots generalizing s count with
  | nil => rfl
  | cons slot rest ih =>
    simp only [joinWorkers]
    split
    · rw [ih, sources_noteJoin]
    · rfl

end Supervisor

namespace Supervision

variable {s t : Supervision}

/-- What an act of a supervisor is for its fleet: acts of the fleet, none of which gives up
receiving, or the start of the workers. -/
inductive Moves (s t : Supervision) : Prop
  | run (acts : List Fleet.Act) (keep : .dropReceivers ∉ acts)
      (ran : s.supervisor.fleet.run? acts = some t.supervisor.fleet)
  | spawn (idle : s.supervisor.fleet.workers = [])
      (spawned : t.supervisor.fleet = s.supervisor.fleet.spawn s.supervisor.sources)

theorem Moves.still (same : t.supervisor.fleet = s.supervisor.fleet) : Moves s t :=
  Moves.run [] List.not_mem_nil (by rw [same]; rfl)

theorem Moves.ofFleet {a : Fleet.Act} (keep : a ≠ .dropReceivers)
    (ht : s.actOfFleet? a = some t) : Moves s t := by
  obtain ⟨fleet, hf, rfl⟩ := Option.map_eq_some_iff.1 ht
  exact .run [a] (by simpa using Ne.symm keep) (by simp [Fleet.run?, hf])

theorem moves_of_act? {a : Act} (tended : s.Tended) (ht : s.act? a = some t) : Moves s t := by
  cases a with
  | start =>
    cases ht
    unfold Supervisor.start
    split
    · exact .still rfl
    · split
      · exact .still rfl
      · next unstarted =>
        dsimp only
        split
        · exact .still rfl
        · exact .spawn (tended.idle (by simpa using unstarted)) rfl
  | call =>
    cases ht
    exact .still rfl
  | poll n =>
    obtain ⟨call, -, rfl⟩ := Option.map_eq_some_iff.1 ht
    obtain ⟨acts, control, ran⟩ := s.supervisor.exists_run?_pollStop call
    exact .run acts (fun drop => by cases control _ drop) ran
  | giveUp n =>
    obtain ⟨call, -, rfl⟩ := Option.map_eq_some_iff.1 ht
    cases call with
    | joining first count slot => exact .run [.closeBus] (by simp) rfl
    | fresh => exact .still rfl
    | finished => exact .still rfl
  | step slot => exact .ofFleet (by simp) ht
  | receive => exact .ofFleet (by simp) ht
  | pass time => exact .ofFleet (by simp) ht

/-- The sources stay the same. -/
theorem sources_of_act? {a : Act} (ht : s.act? a = some t) :
    t.supervisor.sources = s.supervisor.sources := by
  have fleet : ∀ {a : Fleet.Act}, s.actOfFleet? a = some t →
      t.supervisor.sources = s.supervisor.sources := by
    intro a ht
    obtain ⟨fleet, -, rfl⟩ := Option.map_eq_some_iff.1 ht
    rfl
  cases a with
  | start =>
    cases ht
    unfold Supervisor.start
    split
    · rfl
    · split
      · rfl
      · dsimp only
        split <;> rfl
  | call =>
    cases ht
    rfl
  | poll n =>
    obtain ⟨call, -, rfl⟩ := Option.map_eq_some_iff.1 ht
    cases call with
    | fresh =>
      simp only [Supervisor.pollStop]
      split <;> exact Supervisor.sources_joinWorkers ..
    | joining first count slot =>
      simp only [Supervisor.pollStop]
      split
      · exact (Supervisor.sources_joinWorkers ..).trans (Supervisor.sources_noteJoin ..)
      · rfl
    | finished => rfl
  | giveUp n =>
    obtain ⟨call, -, rfl⟩ := Option.map_eq_some_iff.1 ht
    cases call <;> rfl
  | step slot => exact fleet ht
  | receive => exact fleet ht
  | pass time => exact fleet ht

/-- What no act of a fleet breaks, and the start of the workers neither, holds in every state that a
supervisor can reach. -/
theorem preserved_of_run? {P : Fleet → Prop} {acts : List Act}
    (keeps : ∀ {f g : Fleet} {a : Fleet.Act}, a ≠ .dropReceivers → P f → f.act? a = some g → P g)
    (spawns : ∀ {f : Fleet}, P f → f.workers = [] → P (f.spawn s.supervisor.sources))
    (tended : s.Tended) (h : P s.supervisor.fleet) (ran : s.run? acts = some t) :
    P t.supervisor.fleet := by
  have run : ∀ {acts : List Fleet.Act} {f g : Fleet}, .dropReceivers ∉ acts → P f →
      f.run? acts = some g → P g := by
    intro acts
    induction acts with
    | nil =>
      intro f g _ h ran
      cases ran
      exact h
    | cons a acts ih =>
      intro f g keep h ran
      obtain ⟨f', ha, ran⟩ := Option.bind_eq_some_iff.1 ran
      rw [List.mem_cons, not_or] at keep
      exact ih keep.2 (keeps (Ne.symm keep.1) h ha) ran
  induction acts generalizing s with
  | nil =>
    cases ran
    exact h
  | cons a acts ih =>
    obtain ⟨s', hs, ran⟩ := Option.bind_eq_some_iff.1 ran
    refine ih ?_ (tended.act hs) ?_ ran
    · rw [sources_of_act? hs]
      exact spawns
    · cases moves_of_act? tended hs with
      | run acts keep ran => exact run keep h ran
      | spawn idle spawned => exact spawned ▸ spawns h idle

end Supervision

end FeedCapture
