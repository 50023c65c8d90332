import FeedCapture.Proofs.Race.Fleets

/-!
# The handles of the workers

Every handle is still in the supervisor, or one call of stop has taken it.  A handle that was taken
is that of a worker that a call waits for, of a worker that has ended, or it was lost when the call
that had it was given up.

## Main definitions

* `Race.Stopping.awaits?` — the worker that a call waits for
* `Race.Handled` — where the handles are

The main statements are `Race.handled_of_run?` and `Race.ended_of_stop_returned`.
-/

namespace FeedCapture

open Entries

/-- Who has ended has ended for good. -/
theorem Supervisor.hasEnded_of_act? {s : Supervisor} {a : Fleet.Act} {fleet : Fleet}
    (act : s.fleet.act? a = some fleet) {slot : Nat} (ended : s.hasEnded slot = true) :
    Supervisor.hasEnded { s with fleet } slot = true := by
  have length : fleet.workers.length = s.fleet.workers.length := by
    simpa using congrArg List.length (Fleet.keys_of_act? act)
  unfold hasEnded at ended ⊢
  cases hw : s.fleet.workers[slot]? with
  | none =>
    rw [List.getElem?_eq_none_iff, ← length, ← List.getElem?_eq_none_iff] at hw
    simp [hw]
  | some w =>
    rw [hw] at ended
    simp [Fleet.workers_of_act? act hw ended, ended]

namespace Race

variable {r t : Race} {a : Act} {acts : List Act}

/-- The slot of the worker that a call waits for, if any. -/
def Stopping.awaits? : Stopping → Option Nat
  | .joining _ _ slot => some slot
  | _ => none

/-- Where the handles are, where `taken` are those that calls have taken and `forsaken` are those
that were lost. -/
structure Handled (r : Race) (taken : List (Nat × Nat)) (forsaken : List Nat) : Prop where
  /-- Every handle is still there or was taken once. -/
  perm : (r.supervisor.unjoined ++ taken.map Prod.snd).Perm (List.range r.fleet.workers.length)
  own : ∀ n call slot, r.stops[n]? = some call → call.awaits? = some slot → (n, slot) ∈ taken
  fate : ∀ n slot, (n, slot) ∈ taken →
    (∃ call, r.stops[n]? = some call ∧ call.awaits? = some slot) ∨
      r.supervisor.hasEnded slot = true ∨ slot ∈ forsaken
  emptied : ∀ first joined, .emptied first joined ∈ r.stops → r.supervisor.unjoined = []

namespace Handled

variable {taken : List (Nat × Nat)} {forsaken : List Nat}

theorem lt_of_mem (h : Handled r taken forsaken) {n slot : Nat} (mem : (n, slot) ∈ taken) :
    slot < r.fleet.workers.length := by
  have there : slot ∈ r.supervisor.unjoined ++ taken.map Prod.snd :=
    List.mem_append_right _ (List.mem_map.2 ⟨_, mem, rfl⟩)
  exact List.mem_range.1 (h.perm.mem_iff.1 there)

/-- What leaves the calls of stop and the handles alone, and lets who has ended be, changes
nothing. -/
theorem congr (h : Handled r taken forsaken) (stops : t.stops = r.stops)
    (unjoined : t.supervisor.unjoined = r.supervisor.unjoined)
    (length : t.fleet.workers.length = r.fleet.workers.length)
    (ended : ∀ slot, r.supervisor.hasEnded slot = true → t.supervisor.hasEnded slot = true) :
    Handled t taken forsaken where
  perm := by rw [unjoined, length]; exact h.perm
  own := stops ▸ h.own
  fate n slot mem := stops ▸ (h.fate n slot mem).imp_right (.imp_left (ended slot))
  emptied := by rw [stops, unjoined]; exact h.emptied

/-- A call of stop goes on or is given up, and takes no handle. -/
theorem set (h : Handled r taken forsaken) {n : Nat} {call next : Stopping} {s : Supervisor}
    (lost : List Nat) (made : r.stops[n]? = some call)
    (unjoined : s.unjoined = r.supervisor.unjoined)
    (workers : s.fleet.workers = r.fleet.workers) (none : next.awaits? = none)
    (left : ∀ slot, call.awaits? = some slot →
      r.supervisor.hasEnded slot = true ∨ slot ∈ forsaken ++ lost)
    (emptied : ∀ first joined, next = .emptied first joined → r.supervisor.unjoined = []) :
    Handled { r with supervisor := s, stops := r.stops.set n next } taken (forsaken ++ lost) := by
  have ends : s.hasEnded = r.supervisor.hasEnded := by
    funext slot
    exact Supervisor.hasEnded_congr (by rw [workers])
  refine ⟨?_, fun m c slot hc awaits => ?_, fun m slot mem => ?_, fun first joined hc => ?_⟩
  · show (s.unjoined ++ _).Perm (List.range s.fleet.workers.length)
    rw [unjoined, workers]
    exact h.perm
  · rcases cases_of_getElem?_set hc with ⟨-, rfl⟩ | ⟨-, hc⟩
    · rw [none] at awaits
      cases awaits
    · exact h.own m c slot hc awaits
  · show _ ∨ s.hasEnded slot = true ∨ _
    rw [ends]
    rcases h.fate m slot mem with ⟨c, hc, awaits⟩ | ended | lost
    · by_cases same : n = m
      · subst same
        obtain rfl : call = c := Option.some.inj (made.symm.trans hc)
        exact .inr (left slot awaits)
      · exact .inl ⟨c, (List.getElem?_set_ne same).trans hc, awaits⟩
    · exact .inr (.inl ended)
    · exact .inr (.inr (List.mem_append_left _ lost))
  · show s.unjoined = []
    rw [unjoined]
    rcases List.mem_or_eq_of_mem_set hc with hc | same
    · exact h.emptied first joined hc
    · exact emptied first joined same.symm

/-- A call of stop takes the last handle. -/
theorem find (h : Handled r taken forsaken) {n slot joined : Nat} {first : Bool}
    {rest : List Nat} (made : r.stops[n]? = some (.seeking first joined))
    (last : r.supervisor.unjoined = rest ++ [slot]) :
    Handled { r with
      supervisor := { r.supervisor with unjoined := rest }
      stops := r.stops.set n (.joining first joined slot) } (taken ++ [(n, slot)]) forsaken := by
  refine ⟨?_, fun m c other hc awaits => ?_, fun m other mem => ?_, fun first joined hc => ?_⟩
  · refine List.Perm.trans ?_ (last ▸ h.perm)
    simp only [List.map_append, List.map_cons, List.map_nil, List.append_assoc]
    have swap : (taken.map Prod.snd ++ [slot]).Perm ([slot] ++ taken.map Prod.snd) :=
      List.perm_append_comm
    exact swap.append_left rest
  · rcases cases_of_getElem?_set hc with ⟨rfl, rfl⟩ | ⟨-, hc⟩
    · cases awaits
      simp
    · exact List.mem_append_left _ (h.own m c other hc awaits)
  · rcases List.mem_append.1 mem with mem | mem
    · refine (h.fate m other mem).imp_left ?_
      rintro ⟨c, hc, awaits⟩
      refine ⟨c, (List.getElem?_set_ne ?_).trans hc, awaits⟩
      rintro rfl
      obtain rfl := Option.some.inj (made.symm.trans hc)
      cases awaits
    · cases List.mem_singleton.1 mem
      exact .inl ⟨_, getElem?_set_of_some made _, rfl⟩
  · rcases List.mem_or_eq_of_mem_set hc with hc | same
    · have none := h.emptied first joined hc
      simp [last] at none
    · cases same

/-- A call of start starts a worker and puts its handle with the others. -/
theorem spawn (h : Handled r taken forsaken) (quiet : r.Quiet)
    (unstopped : r.supervisor.stopped = false) (addr : String) (starts : List Starting) :
    Handled { r with
      supervisor := { r.supervisor with
        fleet := r.fleet.spawnNext r.fleet.workers.length addr
        unjoined := r.supervisor.unjoined ++ [r.fleet.workers.length] }
      starts } taken forsaken := by
  have added : (r.fleet.spawnNext r.fleet.workers.length addr).workers.length =
      r.fleet.workers.length + 1 := by simp [Fleet.spawnNext]
  refine ⟨?_, h.own, fun n slot mem => ?_, fun first joined mem => ?_⟩
  · show (r.supervisor.unjoined ++ [r.fleet.workers.length] ++ taken.map Prod.snd).Perm
      (List.range (r.fleet.spawnNext _ addr).workers.length)
    rw [added, List.range_succ, List.append_assoc]
    refine List.Perm.trans ?_ (h.perm.append_right [r.fleet.workers.length])
    rw [List.append_assoc]
    exact List.perm_append_comm.append_left _
  · refine (h.fate n slot mem).imp_right (.imp_left fun ended => ?_)
    rwa [Supervisor.hasEnded_congr (Fleet.getElem?_spawnNext_of_lt (h.lt_of_mem mem))]
  · rcases quiet.waiting unstopped _ mem with c | c <;> cases c

/-- The handles after the next section of a call of stop. -/
theorem goStop (h : Handled r taken forsaken) {n : Nat} {call next : Stopping} {s : Supervisor}
    (made : r.stops[n]? = some call) (goes : call.Goes r.supervisor s next) :
    Handled { r with supervisor := s, stops := r.stops.set n next }
      (taken ++ r.pops (.goStop n)) forsaken := by
  -- only the section that takes a handle changes what is taken
  have still : ∀ {s : Supervisor} {next : Stopping},
      s.unjoined = r.supervisor.unjoined → s.fleet.workers = r.fleet.workers →
      next.awaits? = none →
      (∀ slot, call.awaits? = some slot → r.supervisor.hasEnded slot = true) →
      (∀ first joined, next = .emptied first joined → r.supervisor.unjoined = []) →
      r.pops (.goStop n) = [] →
      Handled { r with supervisor := s, stops := r.stops.set n next }
        (taken ++ r.pops (.goStop n)) forsaken := by
    intro s next unjoined workers none left emptied nothing
    rw [nothing, List.append_nil]
    simpa using h.set [] made unjoined workers none (fun slot c => .inl (left slot c)) emptied
  cases goes with
  | @finds first joined slot rest last =>
    have pops : r.pops (.goStop n) = [(n, slot)] := by simp [pops, made, last]
    rw [pops]
    exact h.find made last
  | empties none =>
    exact still rfl rfl rfl (by simp [Stopping.awaits?]) (fun _ _ _ => none)
      (by simp [pops, made, none])
  | joins ended =>
    refine still ?_ (by simp) rfl (fun slot c => ?_) (by simp) (by simp [pops, made])
    · unfold Supervisor.noteJoin
      split <;> rfl
    · cases c
      exact ended
  | _ =>
    exact still rfl rfl rfl (by simp [Stopping.awaits?]) (by simp) (by simp [pops, made])

/-- Whatever happens, every handle is somewhere. -/
theorem act (h : Handled r taken forsaken) (quiet : r.Quiet) {spawned : List Nat}
    (course : Course r spawned) (ht : r.act? a = some t) :
    Handled t (taken ++ r.pops a) (forsaken ++ r.forsakes a) := by
  cases change_of_act? ht with
  | started =>
    simp only [pops, forsakes, List.append_nil]
    exact h.congr rfl rfl rfl fun _ ended => ended
  | stopped =>
    simp only [pops, forsakes, List.append_nil]
    refine ⟨h.perm, fun n call slot hc awaits => ?_, fun n slot mem => ?_,
      fun first joined hc => ?_⟩
    · rcases cases_of_getElem?_concat hc with hc | rfl
      · exact h.own n call slot hc awaits
      · cases awaits
    · refine (h.fate n slot mem).imp_left ?_
      rintro ⟨call, hc, awaits⟩
      exact ⟨call, by rw [List.getElem?_append_left (List.getElem?_eq_some_iff.1 hc).1, hc], awaits⟩
    · rcases List.mem_append.1 hc with hc | hc
      · exact h.emptied first joined hc
      · cases List.mem_singleton.1 hc
  | @start n call next s made free goes =>
    simp only [pops, forsakes, List.append_nil]
    cases goes with
    | spawns source =>
      obtain ⟨-, unstopped, -, rfl, -⟩ := course.of_spawning made
      exact h.spawn quiet unstopped _ _
    | _ => exact h.congr rfl rfl rfl fun _ ended => ended
  | stop made free goes =>
    simp only [forsakes, List.append_nil]
    exact h.goStop made goes
  | @giveUp n call next s made drops =>
    simp only [pops, List.append_nil]
    cases drops with
    | unused =>
      exact h.set _ made rfl rfl rfl (fun slot c => by cases c) (by simp)
    | forsakes =>
      refine h.set _ made rfl rfl rfl (fun slot c => .inr ?_) (by simp)
      cases c
      simp [forsakes, made]
  | @fleet _ own fleet kind act =>
    have pops : r.pops a = [] := by cases a <;> first | rfl | cases kind
    have forsakes : r.forsakes a = [] := by cases a <;> first | rfl | cases kind
    rw [pops, forsakes, List.append_nil, List.append_nil]
    exact h.congr rfl rfl (framed_of_ofFleet? kind act).length fun slot ended =>
      Supervisor.hasEnded_of_act? act ended

end Handled

/-- In every state that racing calls can reach, every handle is somewhere. -/
theorem handled_of_run? {sources : List String} {policy : Policy} {network : Network}
    {counting : Bool} {supervisor : Supervisor}
    (created : Supervisor.create sources policy network counting = .ok supervisor)
    (ran : run? { supervisor } acts = some t) :
    Handled t (taken { supervisor } acts) (forsaken { supervisor } acts) := by
  refine induction_of_run?
    (P := fun xs r => Handled r (taken { supervisor } xs) (forsaken { supervisor } xs)) ?_
    (fun {xs a r u} before h act => ?_) ran
  · obtain ⟨-, -, rfl⟩ := Supervisor.create_eq_ok created
    exact ⟨.refl _, fun _ _ _ h => (by cases h), fun _ _ h => (by cases h),
      fun _ _ h => (by cases h)⟩
  · rw [taken, trace_concat pops before, forsaken, trace_concat forsakes before]
    exact h.act (quiet_of_run? created before) (course_of_run? created before) act

/-! ## When a call of stop returns -/

/-- **A call of stop returns when nobody is left to join.**  However calls of start and of stop race
and are given up: when a call of stop returns, every worker has ended, but for those that another
call still waits for, and those whose handle was lost when the call that waited for them was given
up. -/
theorem ended_of_stop_returned {sources : List String} {policy : Policy} {network : Network}
    {counting : Bool} {supervisor : Supervisor} {n : Nat}
    (created : Supervisor.create sources policy network counting = .ok supervisor)
    (ran : run? { supervisor } acts = some r) (went : r.act? (.goStop n) = some t)
    (returned : t.stops[n]? = some .finished) :
    ∀ (slot : Nat) (w : Worker), t.fleet.workers[slot]? = some w → w.ended = true ∨
      (∃ (m : Nat) (first : Bool) (joined : Nat),
        t.stops[m]? = some (.joining first joined slot)) ∨
      slot ∈ forsaken { supervisor } acts := by
  have handled := handled_of_run? created ran
  cases change_of_act? went with
  | @stop _ call next s made free goes =>
    have there := (List.getElem?_eq_some_iff.1 made).1
    obtain rfl : next = .finished := by simpa [there] using returned
    cases goes with
    | @finishes first joined =>
      intro slot w hw
      have hw : r.fleet.workers[slot]? = some w := hw
      -- nobody was left to join, so every handle was taken
      have all := handled.perm
      rw [handled.emptied first joined (List.mem_of_getElem? made), List.nil_append] at all
      have known := List.mem_range.2 (List.getElem?_eq_some_iff.1 hw).1
      obtain ⟨⟨m, _⟩, mem, rfl⟩ := List.mem_map.1 (all.mem_iff.2 known)
      rcases handled.fate m _ mem with ⟨c, hc, awaits⟩ | ended | lost
      · refine .inr (.inl ?_)
        cases c with
        | joining first' joined' slot' =>
          cases awaits
          refine ⟨m, first', joined', (List.getElem?_set_ne ?_).trans hc⟩
          rintro rfl
          rw [made] at hc
          cases hc
        | _ => cases awaits
      · exact .inl (by simpa [Supervisor.hasEnded, hw] using ended)
      · exact .inr (.inr lost)
  | fleet kind => cases kind

/-- One source, whose peer accepts and then says nothing. -/
def silent : Supervisor where
  sources := ["feed:1"]
  fleet := Fleet.create {} ⟨[("feed:1", [.settles 0 (.connected [] none)])]⟩
    { capacity := 1000 } false false

/-- The worker is started and connects; a call of stop signals it and takes its handle. -/
def awaiting : List Act :=
  [.start, .goStart 0, .goStart 0, .goStart 0, .goStart 0, .step 0, .step 0,
    .stop, .goStop 0, .goStop 0, .goStop 0, .goStop 0]

/-- The worker ends, and the call joins it and returns. -/
theorem ended_of_stop_returned_silent :
    ∃ r t, Supervisor.create silent.sources {} silent.fleet.hub.network false = .ok silent ∧
      run? { supervisor := silent } (awaiting ++ [.step 0, .step 0, .goStop 0, .goStop 0]) =
        some r ∧
      r.act? (.goStop 0) = some t ∧ t.stops[0]? = some .finished ∧
      ∀ (slot : Nat) (w : Worker), t.fleet.workers[slot]? = some w → w.ended = true := by
  have outcome : ((run? { supervisor := silent }
      (awaiting ++ [.step 0, .step 0, .goStop 0, .goStop 0])).bind fun r =>
        (r.act? (.goStop 0)).map fun t => t.stops) = some [.finished] := by decide +kernel
  obtain ⟨r, ran, outcome⟩ := Option.bind_eq_some_iff.1 outcome
  obtain ⟨t, went, stops⟩ := Option.map_eq_some_iff.1 outcome
  have created : Supervisor.create silent.sources {} silent.fleet.hub.network false =
    .ok silent := rfl
  have lost : forsaken { supervisor := silent }
      (awaiting ++ [.step 0, .step 0, .goStop 0, .goStop 0]) = [] := by decide +kernel
  have returned : t.stops[0]? = some .finished := by rw [stops]; rfl
  refine ⟨r, t, created, ran, went, returned, fun slot w hw => ?_⟩
  rcases ended_of_stop_returned created ran went returned slot w hw with
    ended | ⟨m, first, joined, waits⟩ | forsaken
  · exact ended
  · have mem := List.mem_of_getElem? waits
    rw [stops] at mem
    cases List.mem_singleton.1 mem
  · rw [lost] at forsaken
    cases forsaken

/-- The call is given up while it waits, and a second call of stop finds nobody to join: it returns
although the worker has not ended. -/
theorem going_of_stop_returned_abandoned :
    ∃ r t w, Supervisor.create silent.sources {} silent.fleet.hub.network false = .ok silent ∧
      run? { supervisor := silent } (awaiting ++ [.giveUp 0, .stop, .goStop 1, .goStop 1]) =
        some r ∧
      r.act? (.goStop 1) = some t ∧ t.stops[1]? = some .finished ∧
      t.fleet.workers[0]? = some w ∧ w.ended = false := by
  have outcome : ((run? { supervisor := silent }
      (awaiting ++ [.giveUp 0, .stop, .goStop 1, .goStop 1])).bind fun r =>
        (r.act? (.goStop 1)).map fun t =>
          (t.stops[1]?, t.fleet.workers.map (·.ended))) = some (some .finished, [false]) := by
    decide +kernel
  obtain ⟨r, ran, outcome⟩ := Option.bind_eq_some_iff.1 outcome
  obtain ⟨t, went, same⟩ := Option.map_eq_some_iff.1 outcome
  obtain ⟨returned, ends⟩ := Prod.mk.inj same
  obtain ⟨w, one, going⟩ := List.map_eq_singleton_iff.1 ends
  exact ⟨r, t, w, rfl, ran, went, returned, by rw [one]; rfl, going⟩

end Race

end FeedCapture
