import FeedCapture.Proofs.Fleet.Fidelity
import FeedCapture.Proofs.Fleet.Receiving
import FeedCapture.Proofs.Race.Lock

/-!
# What racing calls do to the workers

Whatever happens in a race, the workers, the bus and the clock go through acts of a fleet in which
nobody gives up receiving, but for the workers that a call of start adds one by one.  So the fleet
stays wired, and its history accounts for what was received.

## Main definitions

* `Race.Moves` — what an act is for the workers
* `Race.Manned` — what holds of the workers in every state

The main statement is `Race.manned_of_run?`.
-/

namespace FeedCapture

namespace Fleet

variable {f g : Fleet} {policy : Policy} {got : List Message}

/-! ## One more worker -/

theorem cases_of_getElem?_spawnNext {addr : String} {slot : Nat} {w : Worker}
    (h : (f.spawnNext f.workers.length addr).workers[slot]? = some w) :
    f.workers[slot]? = some w ∨
      slot = f.workers.length ∧ w = { key := ⟨f.workers.length, addr⟩ } := by
  simp only [spawnNext, List.getElem?_append] at h
  split at h
  · exact .inl h
  · next beyond =>
    rw [List.getElem?_singleton, Option.ite_none_right_eq_some] at h
    exact .inr ⟨by omega, (Option.some.inj h.2).symm⟩

/-- Who is there already stays as they are. -/
theorem getElem?_spawnNext_of_lt {addr : String} {slot next : Nat}
    (there : slot < f.workers.length) :
    (f.spawnNext next addr).workers[slot]? = f.workers[slot]? :=
  List.getElem?_append_left there

/-- A new worker is wired: it has no connection. -/
theorem Wired.spawnNext (h : f.Wired) (addr : String) :
    (f.spawnNext f.workers.length addr).Wired := by
  have nobody : f.workers[f.workers.length]? = none := List.getElem?_eq_none_iff.2 (Nat.le_refl _)
  refine ⟨h.stop, fun slot w hw => ?_, fun slot w hw => ?_, fun key hk => ?_, h.nodup⟩
  · rcases cases_of_getElem?_spawnNext hw with old | ⟨rfl, rfl⟩
    · exact h.slots slot w old
    · rfl
  · rcases cases_of_getElem?_spawnNext hw with old | ⟨rfl, rfl⟩
    · exact h.each slot w old
    · refine ⟨fun link hl => (by cases hl), ?_⟩
      show f.hub.registry.get? ⟨f.workers.length, addr⟩ = none
      cases found : f.hub.registry.get? ⟨f.workers.length, addr⟩ with
      | none => rfl
      | some close =>
        obtain ⟨w, hw, -⟩ := h.owned _ (Registry.mem_keys_of_get? found)
        rw [nobody] at hw
        cases hw
  · obtain ⟨w, hw, key⟩ := h.owned key hk
    have there := (List.getElem?_eq_some_iff.1 hw).1
    exact ⟨w, (getElem?_spawnNext_of_lt there).trans hw, key⟩

/-- A new worker has done nothing. -/
theorem Accounted.spawnNext (h : Accounted policy f got) (addr : String) :
    Accounted policy (f.spawnNext f.workers.length addr) got := by
  have nobody : f.workers[f.workers.length]? = none := List.getElem?_eq_none_iff.2 (Nat.le_refl _)
  refine ⟨h.obeys, h.order, h.queue, h.lost, fun slot w hw => ?_, fun slot none => ?_, h.grouped⟩
  · rcases cases_of_getElem?_spawnNext hw with old | ⟨rfl, rfl⟩
    · exact h.carries slot w old
    · refine .nothing rfl fun p hp => ?_
      have hp : p ∈ f.passages f.workers.length := hp
      rw [h.unknown _ nobody] at hp
      cases hp
  · refine h.unknown slot (List.getElem?_eq_none_iff.2 ?_)
    have beyond := List.getElem?_eq_none_iff.1 none
    simp only [Fleet.spawnNext, List.length_append, List.length_singleton] at beyond
    omega

/-- The sender that whoever starts the workers holds concerns nobody else. -/
theorem Accounted.withSpare (h : Accounted policy f got) (held : Bool) :
    Accounted policy { f with spareSender := held } got :=
  ⟨h.obeys, h.order, h.queue, h.lost, h.carries, h.unknown, h.grouped⟩

theorem Wired.withSpare (h : f.Wired) (held : Bool) : Wired { f with spareSender := held } :=
  ⟨h.stop, h.slots, h.each, h.owned, h.nodup⟩

/-! ## What acts of a fleet keep -/

/-- Workers keep their keys. -/
theorem keys_of_act? {a : Act} (h : f.act? a = some g) :
    g.workers.map (·.key) = f.workers.map (·.key) := by
  cases change_of_act? h with
  | @step slot w s worker step =>
    have key := Worker.key_of_transition (Worker.transition_of_step? step)
    obtain ⟨there, rfl⟩ := List.getElem?_eq_some_iff.1 worker
    have known : slot < (f.workers.map (·.key)).length := by simpa using there
    have same : f.workers[slot].key = (f.workers.map (·.key))[slot] := by simp
    simp only [afterStep, List.map_set, key]
    rw [same, List.set_getElem_self]
  | _ => rfl

theorem keys_of_run? {acts : List Act} (ran : f.run? acts = some g) :
    g.workers.map (·.key) = f.workers.map (·.key) :=
  preserved_of_run? (P := fun g => g.workers.map (·.key) = f.workers.map (·.key))
    (fun same act => (keys_of_act? act).trans same) rfl ran

end Fleet

namespace Race

variable {r t : Race} {a : Act} {acts : List Act}

/-! ## What an act is for the workers -/

/-- What an act is for the workers: nothing, an act of the fleet in which nobody gives up receiving,
or a part of their start. -/
inductive Moves (r : Race) (a : Act) (t : Race) : Prop where
  | still (same : t.fleet = r.fleet) (nothing : r.takes a = [])
  | act (own : Fleet.Act) (keep : own ≠ .dropReceivers) (act : r.fleet.act? own = some t.fleet)
      (takes : r.takes a = r.fleet.takes own)
  | spare {n : Nat} {call : Starting} (held : Bool) (made : r.starts[n]? = some call)
      (holds : call.holds = true) (same : t.fleet = { r.fleet with spareSender := held })
      (nothing : r.takes a = [])
  | spawn {n slot : Nat} {addr : String} (made : r.starts[n]? = some (.spawning slot))
      (source : r.supervisor.sources[slot]? = some addr)
      (same : t.fleet = r.fleet.spawnNext slot addr) (nothing : r.takes a = [])

theorem moves_of_act? (ht : r.act? a = some t) : r.Moves a t := by
  cases change_of_act? ht with
  | started => exact .still rfl rfl
  | stopped => exact .still rfl rfl
  | start made free goes =>
    cases goes with
    | equips => exact .spare true made rfl rfl rfl
    | spawns source => exact .spawn made source rfl rfl
    | leaves => exact .spare false made rfl rfl rfl
    | _ => exact .still rfl rfl
  | stop made free goes =>
    cases goes with
    | cancels => exact .act .stop (by simp) rfl rfl
    | closes => exact .act .closeAll (by simp) rfl rfl
    | finishes => exact .act .closeBus (by simp) rfl rfl
    | joins ended => exact .still (Supervisor.fleet_noteJoin _ _) rfl
    | _ => exact .still rfl rfl
  | giveUp made drops =>
    cases drops with
    | unused => exact .still rfl rfl
    | forsakes => exact .act .closeBus (by simp) rfl rfl
  | @fleet _ own fleet kind act =>
    have takes : r.takes a = r.fleet.takes own := by
      cases a <;> cases kind <;> rfl
    have keep : own ≠ .dropReceivers := by
      rintro rfl
      cases a <;> cases kind
    exact .act own keep act takes

/-! ## What holds of the workers -/

/-- The workers are those for the first sources, they are wired, and the history accounts for what
was received. -/
structure Manned (policy : Policy) (r : Race) (got : List Message) : Prop where
  keys : r.fleet.workers.map (·.key) =
    (r.supervisor.sources.mapIdx SourceKey.mk).take r.fleet.workers.length
  wired : r.fleet.Wired
  account : Fleet.Accounted policy r.fleet got
  receiving : r.fleet.hub.bus.receiving = true

theorem sources_of_act? (ht : r.act? a = some t) :
    t.supervisor.sources = r.supervisor.sources := by
  cases change_of_act? ht with
  | started => rfl
  | stopped => rfl
  | start made free goes => exact goes.frame.1
  | stop made free goes => exact goes.frame.1
  | giveUp made drops => exact drops.frame.1
  | fleet kind act => rfl

variable {policy : Policy} {got : List Message} {spawned : List Nat}

/-- Whatever happens, the workers stay in order. -/
theorem Manned.act (h : Manned policy r got) (valid : policy.check = .ok ())
    (course : Course r spawned) (ht : r.act? a = some t) :
    Manned policy t (got ++ r.takes a) := by
  have pos := Nat.pos_of_ne_zero (policy.check_eq_ok_iff.1 valid).1
  have sources := sources_of_act? ht
  cases moves_of_act? ht with
  | still fleet nothing =>
    rw [nothing, List.append_nil]
    exact ⟨by rw [fleet, sources, h.keys], fleet ▸ h.wired, fleet ▸ h.account,
      fleet ▸ h.receiving⟩
  | act own keep act takes =>
    have keys := Fleet.keys_of_act? act
    have length : t.fleet.workers.length = r.fleet.workers.length := by
      simpa using congrArg List.length keys
    refine ⟨?_, h.wired.act act, takes ▸ h.account.act pos act, ?_⟩
    · rw [keys, length, sources, h.keys]
    · exact (Fleet.receiving_of_act? keep act).trans h.receiving
  | spare held made holds fleet nothing =>
    rw [nothing, List.append_nil]
    exact ⟨by rw [fleet, sources, h.keys], fleet ▸ h.wired.withSpare held,
      fleet ▸ h.account.withSpare held, fleet ▸ h.receiving⟩
  | @spawn n slot addr made source fleet nothing =>
    obtain ⟨-, -, -, rfl, -⟩ := course.of_spawning made
    rw [nothing, List.append_nil]
    refine ⟨?_, fleet ▸ h.wired.spawnNext addr, fleet ▸ h.account.spawnNext addr,
      fleet ▸ h.receiving⟩
    rw [fleet, sources]
    simp [Fleet.spawnNext, h.keys, List.take_add_one, source]

/-- In every state that racing calls can reach, the workers are in order. -/
theorem manned_of_run? {sources : List String} {network : Network}
    {counting : Bool} {supervisor : Supervisor}
    (created : Supervisor.create sources policy network counting = .ok supervisor)
    (ran : run? { supervisor } acts = some t) :
    Manned policy t (received { supervisor } acts) := by
  refine induction_of_run? (P := fun xs r => Manned policy r (received { supervisor } xs)) ?_
    (fun {xs a r u} before h act => ?_) ran
  · obtain ⟨valid, built, rfl⟩ := Supervisor.create_eq_ok created
    exact ⟨rfl, Fleet.wired_create _ _ _ _ _,
      Fleet.accounted_create built policy network counting false [], rfl⟩
  · rw [received, trace_concat takes before]
    exact h.act (Supervisor.create_eq_ok created).1 (course_of_run? created before) act

/-- The sources stay the same. -/
theorem sources_of_run? (ran : r.run? acts = some t) :
    t.supervisor.sources = r.supervisor.sources :=
  induction_of_run? (P := fun _ u => u.supervisor.sources = r.supervisor.sources) rfl
    (fun _ same act => (sources_of_act? act).trans same) ran

/-! ## After the flag is set -/

/-- Once the flag is set, it stays set. -/
theorem stopped_of_act? (stopped : r.supervisor.stopped = true) (ht : r.act? a = some t) :
    t.supervisor.stopped = true := by
  cases change_of_act? ht with
  | started => exact stopped
  | stopped => exact stopped
  | start made free goes => exact goes.frame.2.1.trans stopped
  | stop made free goes => exact goes.stopped stopped
  | giveUp made drops => exact drops.frame.2.2.1.trans stopped
  | fleet kind act => exact stopped

namespace Course

/-- Once the flag is set, no call of start holds the lock. -/
theorem free_of_stopped (h : Course r spawned) (stopped : r.supervisor.stopped = true) :
    Starting.Free r.starts := by
  cases h with
  | idle _ free => exact free
  | entered _ unstopped =>
    rw [stopped] at unstopped
    cases unstopped
  | spawning _ unstopped =>
    rw [stopped] at unstopped
    cases unstopped
  | returned _ free => exact free

/-- Once the flag is set, nobody is started: what happens are acts of the fleet. -/
theorem act_of_stopped (h : Course r spawned) (stopped : r.supervisor.stopped = true)
    (ht : r.act? a = some t) :
    r.spawns a = [] ∧ ∃ own, .dropReceivers ∉ own ∧ r.fleet.run? own = some t.fleet ∧
      r.takes a = r.fleet.received own := by
  have free := h.free_of_stopped stopped
  have nobody : ∀ {n : Nat} {call : Starting} {p : Prop}, r.starts[n]? = some call →
      call.holds = true → p := by
    intro n call p made holds
    rw [free call (List.mem_of_getElem? made)] at holds
    cases holds
  refine ⟨?_, ?_⟩
  · cases a with
    | goStart n =>
      simp only [spawns]
      split
      · next slot made => exact nobody made rfl
      · rfl
    | _ => rfl
  · cases moves_of_act? ht with
    | still same nothing => exact ⟨[], List.not_mem_nil, by rw [same]; rfl, nothing⟩
    | act own keep act takes =>
      refine ⟨[own], by simpa using keep.symm, by simp [Fleet.run?, act], ?_⟩
      simp [Fleet.received, act, takes]
    | spare held made holds => exact nobody made holds
    | spawn made => exact nobody made rfl

theorem run_of_stopped (h : Course r spawned) (quiet : r.Quiet)
    (stopped : r.supervisor.stopped = true) (ran : r.run? acts = some t) :
    t.supervisor.stopped = true ∧ (∃ spawned, Course t spawned) ∧ r.spawners acts = [] ∧
      ∃ own, .dropReceivers ∉ own ∧ r.fleet.run? own = some t.fleet ∧
        r.received acts = r.fleet.received own := by
  have kept := induction_of_run? (r := r)
    (P := fun xs t => (t.Quiet ∧ (∃ spawned, Course t spawned)) ∧
      t.supervisor.stopped = true ∧ r.spawners xs = [] ∧
      ∃ own, .dropReceivers ∉ own ∧ r.fleet.run? own = some t.fleet ∧
        r.received xs = r.fleet.received own)
    ⟨⟨quiet, spawned, h⟩, stopped, rfl, [], List.not_mem_nil, rfl, rfl⟩
    (fun {xs a t u} before h act => ?_) ran
  · exact ⟨kept.2.1, kept.1.2, kept.2.2⟩
  · obtain ⟨⟨quiet, spawned, course⟩, stopped, nobody, own, keep, went, got⟩ := h
    obtain ⟨still, own', keep', went', got'⟩ := course.act_of_stopped stopped act
    refine ⟨⟨quiet.act act, _, course.act quiet act⟩, stopped_of_act? stopped act, ?_,
      own ++ own', by simp [keep, keep'], ?_, ?_⟩
    · rw [spawners, trace_concat spawns before, still, List.append_nil]
      exact nobody
    · rw [Fleet.run?_append, went]
      exact went'
    · rw [received, trace_concat takes before, Fleet.received_append went, got', ← got, received]

end Course

end Race

end FeedCapture
