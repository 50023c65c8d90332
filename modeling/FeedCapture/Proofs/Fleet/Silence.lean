import FeedCapture.Proofs.Fleet.Fidelity
import FeedCapture.Proofs.Worker.Silence
import FeedCapture.Proofs.Worker.Waiting

/-!
# Silent connections are dropped, and no others

In a run in which timers fire when they are due, a connection is given up because of silence only
when it is stale, and a worker whose peer falls silent gives its connection up within its patience,
unless it is closed before.

## Main definitions

* `Fleet.watches` — the connections of a worker, with what the log tells about silence
* `Fleet.Watched` — all silences are within their bounds
* `Fleet.Awaited` — what becomes of a connection whose peer has fallen silent

The main statement is `silence_of_run`.
-/

namespace FeedCapture.Fleet

open Worker

/-- The connections of the worker in a slot, the latest first, with what the log tells about
silence. -/
def watches (f : Fleet) (slot : Nat) : List Watch := Watch.ofLog (f.log slot)

variable {policy : Policy} {f g : Fleet} {a : Act} {slot : Nat}

theorem watches_afterStep_self {s : Worker.Step} :
    (f.afterStep slot s).watches slot = Watch.recordAll f.hub.now s.events (f.watches slot) := by
  rw [watches, log_afterStep_self, Watch.ofLog_append]
  rfl

theorem watches_afterStep_of_ne {s : Worker.Step} {other : Nat} (hne : slot ≠ other) :
    (f.afterStep slot s).watches other = f.watches other :=
  congrArg Watch.ofLog (log_afterStep_of_ne hne)

/-- Only its own steps change a worker and its connections. -/
theorem frame_of_act? (ha : f.act? a = some g) (other : a ≠ .step slot) :
    g.workers[slot]? = f.workers[slot]? ∧ g.watches slot = f.watches slot := by
  cases change_of_act? ha with
  | @step slot' w s worker step =>
    have hne : slot' ≠ slot := fun h => other (congrArg Act.step h)
    exact ⟨workers_afterStep_of_ne f s hne, watches_afterStep_of_ne hne⟩
  | _ => exact ⟨rfl, rfl⟩

/-! ## Silences within their bounds -/

/-- All silences of a fleet are within their bounds. -/
structure Watched (policy : Policy) (f : Fleet) : Prop where
  obeys : f.hub.policy = policy
  watches : ∀ slot w, f.workers[slot]? = some w →
    Watches policy f.hub.now w.phase (f.watches slot)
  unknown : ∀ slot, f.workers[slot]? = none → f.watches slot = []
  /-- Whatever ended a connection is noted there. -/
  noted : ∀ slot t reason, (t, .exited reason) ∈ f.log slot →
    ∃ p ∈ f.watches slot, p.ending = some (t, reason)

/-- Nothing has happened in a new fleet. -/
theorem watched_create (policy : Policy) (network : Network) (bus : Bus Nat)
    (counting spare : Bool) (addrs : List String) :
    Watched policy ((create policy network bus counting spare).spawn addrs) := by
  refine ⟨rfl, ?_, fun _ _ => rfl, fun _ _ _ told => by cases told⟩
  intro slot w hw
  obtain ⟨_, rfl⟩ : ∃ addr, w = { key := ⟨slot, addr⟩ } := by
    simp only [spawn, List.getElem?_mapIdx, Option.map_eq_some_iff] at hw
    obtain ⟨addr, -, rfl⟩ := hw
    exact ⟨addr, rfl⟩
  exact .nothing rfl (List.forall_mem_nil _)

namespace Watched

/-- A step of a worker keeps the silences within their bounds. -/
theorem step {w : Worker} {s : Worker.Step} (h : Watched policy f)
    (hw : f.workers[slot]? = some w) (step : Transition f.hub w s) :
    Watched policy (f.afterStep slot s) := by
  have kept := kept_of_transition step
  have own := h.watches slot w hw
  rw [← h.obeys] at own
  refine ⟨kept.policy.trans h.obeys, ?_, ?_, ?_⟩
  · intro other v hv
    show Watches policy s.hub.now v.phase _
    rw [kept.now]
    by_cases hne : slot = other
    · subst hne
      obtain rfl : s.worker = v := by simpa [workers_afterStep_self s hw] using hv
      rw [watches_afterStep_self, ← h.obeys]
      exact own.transition step
    · rw [watches_afterStep_of_ne hne]
      exact h.watches other v (by rwa [workers_afterStep_of_ne f s hne] at hv)
  · intro other none
    have hne : slot ≠ other := by
      rintro rfl
      simp [workers_afterStep_self s hw] at none
    rw [watches_afterStep_of_ne hne]
    exact h.unknown other (by rwa [workers_afterStep_of_ne f s hne] at none)
  · intro other t reason told
    by_cases hne : slot = other
    · subst hne
      rw [watches_afterStep_self]
      rw [log_afterStep_self, List.mem_append, List.mem_reverse] at told
      rcases told with told | told
      · obtain ⟨e, mem, same⟩ := List.mem_map.1 told
        cases same
        exact own.ends_of_transition step mem
      · obtain ⟨p, hp, ending⟩ := h.noted slot t reason told
        exact ⟨p, Watch.mem_recordAll_of_ended hp (by simp [ending]) _ _, ending⟩
    · rw [watches_afterStep_of_ne hne]
      exact h.noted other t reason (by rwa [log_afterStep_of_ne hne] at told)

/-- Time passes up to the first deadline at most. -/
theorem pass {t : Instant} (h : Watched policy f) (can : f.canPass t = true) :
    Watched policy (f.moveTo t) := by
  simp only [canPass, Bool.and_eq_true, decide_eq_true_eq] at can
  obtain ⟨⟨later, -⟩, early⟩ := can
  refine ⟨h.obeys, fun slot w hw => ?_, h.unknown, h.noted⟩
  refine (h.watches slot w hw).later later fun link deadline phase => ?_
  obtain ⟨wake, wakes, due⟩ : ∃ wake, w.wakeAt = some wake ∧ wake ≤ deadline := by
    rw [Worker.wakeAt, phase]
    exact exists_earlier_le_right _ _
  have hw : f.workers[slot]? = some w := hw
  obtain ⟨first, next, le⟩ := exists_wakeAt_le (List.mem_of_getElem? hw) wakes
  rw [next] at early
  exact Nat.le_trans (of_decide_eq_true early) (Nat.le_trans le due)

/-- Whatever happens, while timers fire when they are due, keeps the silences within their
bounds. -/
theorem act (h : Watched policy f) (punctual : ∀ t, a ≠ .lag t) (ha : f.act? a = some g) :
    Watched policy g := by
  cases change_of_act? ha with
  | step worker step => exact h.step worker (transition_of_step? step)
  | @clock _ t moves later =>
    rcases moves with rfl | rfl
    · simp only [act?, Option.ite_none_right_eq_some] at ha
      exact h.pass ha.1
    · exact absurd rfl (punctual t)
  | _ => exact ⟨h.obeys, h.watches, h.unknown, h.noted⟩

theorem run {acts : List Act} (h : Watched policy f) (punctual : ∀ t, .lag t ∉ acts)
    (ran : f.run? acts = some g) : Watched policy g :=
  preserved_of_punctual (fun now h ha => h.act now ha) punctual h ran

end Watched

/-! ## Peers that fall silent -/

/-- What becomes of a connection, with those before it, after its peer fell silent. -/
inductive Awaited (policy : Policy) (g : Fleet) (slot : Nat) (link : Link) (p : Watch)
    (rest : List Watch) : Prop
  /-- The worker still reads, and has patience; where all workers wait it has some left. -/
  | waiting {w : Worker} {deadline : Instant} (worker : g.workers[slot]? = some w)
      (phase : w.phase = .reading link deadline) (same : g.watches slot = p :: rest)
      (soon : g.hub.now ≤ p.heard + p.patience policy)
      (left : g.canStep = false → g.hub.now < p.heard + p.patience policy)
  /-- The worker gave the connection up in time because of the silence, or it was closed before. -/
  | dropped {later : List Watch} {t : Instant} {reason : ReadExit}
      (ended : g.watches slot = later ++ { p with ending := some (t, reason) } :: rest)
      (soon : t ≤ p.heard + p.patience policy)
      (cause : reason = .idle (t - p.heard) ∨ reason = .closed)

variable {link : Link} {p : Watch} {rest : List Watch}

/-- A worker that reads has patience. -/
theorem Watched.awaited {w : Worker} {deadline : Instant} (h : Watched policy g)
    (worker : g.workers[slot]? = some w) (phase : w.phase = .reading link deadline)
    (same : g.watches slot = p :: rest) : Awaited policy g slot link p rest := by
  have reads := h.watches slot w worker
  rw [phase, same] at reads
  obtain ⟨_, _, head, -, punctual, patient, -⟩ := reads.of_reading
  cases head
  refine .waiting worker phase same (Nat.le_trans punctual patient) fun settled => ?_
  have waits : w.step? g.hub = none := by
    simpa using List.any_eq_false.1 settled w (List.mem_of_getElem? worker)
  exact Nat.lt_of_lt_of_le ((waits_reading phase).1 waits).2.2 patient

namespace Awaited

/-- Whatever happens while the peer is silent, the connection is given up in time. -/
theorem act (awaited : Awaited policy f slot link p rest) (h : Watched policy f)
    (silent : ∀ due, link.connection.nextAt = some due → p.heard + p.patience policy < due)
    (punctual : ∀ t, a ≠ .lag t) (ha : f.act? a = some g) :
    Awaited policy g slot link p rest := by
  have next := h.act punctual ha
  by_cases own : a = .step slot
  · subst own
    obtain ⟨w, s, worker, step, rfl⟩ := exists_of_stepWorker? ha
    cases awaited with
    | @waiting w' deadline worker' phase same soon left =>
      obtain rfl : w = w' := Option.some.inj (worker.symm.trans worker')
      have nothing : link.connection.read? f.hub.now f.hub.policy.readBufferSize = none :=
        (Connection.read?_eq_none_iff ..).2 fun due first =>
          Nat.lt_of_le_of_lt soon (silent due first)
      have reads := h.watches slot w worker
      rw [phase, same] at reads
      obtain ⟨_, _, head, current, -⟩ := reads.of_reading
      cases head
      rcases step?_of_silent phase nothing step with ⟨reason, rfl, cause⟩ | ⟨_, phase', quiet⟩
      · rw [current.last] at cause
        have ended : (f.afterStep slot (leave f.hub w reason)).watches slot =
            [] ++ { p with ending := some (f.hub.now, reason) } :: rest := by
          rw [watches_afterStep_self, same, Watch.recordAll_leave, List.modifyHead_cons,
            current.note_exited, List.nil_append]
        exact .dropped ended soon cause.symm
      · refine next.awaited (workers_afterStep_self s worker) phase' ?_
        rw [watches_afterStep_self, same, Watch.recordAll_of_quiet quiet]
    | dropped ended soon cause =>
      obtain ⟨later', recorded⟩ := Watch.exists_recordAll_append
        (p := { p with ending := some (_, _) }) (by simp) f.hub.now s.events _ rest
      rw [← ended, ← watches_afterStep_self] at recorded
      exact .dropped recorded soon cause
  · obtain ⟨worker_eq, watches_eq⟩ := frame_of_act? ha own
    cases awaited with
    | waiting worker phase same soon left =>
      exact next.awaited (worker_eq.trans worker) phase (watches_eq.trans same)
    | dropped ended soon cause => exact .dropped (watches_eq.trans ended) soon cause

theorem run {acts : List Act} (awaited : Awaited policy f slot link p rest)
    (h : Watched policy f)
    (silent : ∀ due, link.connection.nextAt = some due → p.heard + p.patience policy < due)
    (punctual : ∀ t, .lag t ∉ acts) (ran : f.run? acts = some g) :
    Awaited policy g slot link p rest := by
  have both := preserved_of_punctual
    (P := fun f => Watched policy f ∧ Awaited policy f slot link p rest)
    (fun now both ha => ⟨both.1.act now ha, both.2.act both.1 silent now ha⟩) punctual
    ⟨h, awaited⟩ ran
  exact both.2

end Awaited

/-! ## The main statement -/

/-- **Silent connections are dropped, and no others.**  In every run of a fleet in which timers fire
when they are due: a connection that is given up because of silence is stale then.  And while a
worker reads from a connection whose peer does nothing more within the patience of the worker, it
gives the connection up within its patience, whatever else happens, unless the connection is closed
before. -/
theorem silence_of_run {network : Network} {bus : Bus Nat} {counting spare : Bool}
    {addrs : List String} {acts : List Act} {start : Fleet}
    (new : start = (create policy network bus counting spare).spawn addrs)
    (punctual : ∀ t, .lag t ∉ acts) (ran : start.run? acts = some f) (slot : Nat) :
    (∀ t silent, (t, .exited (.idle silent)) ∈ f.log slot →
      ∃ p ∈ f.watches slot, p.ending = some (t, .idle silent) ∧ p.Stale policy t silent) ∧
    ∀ w link deadline, f.workers[slot]? = some w → w.phase = .reading link deadline →
      ∃ p rest, f.watches slot = p :: rest ∧ p.ending = none ∧
        ((∀ due, link.connection.nextAt = some due → p.heard + p.patience policy < due) →
          ∀ more g, (∀ t, .lag t ∉ more) → f.run? more = some g →
            Awaited policy g slot link p rest) := by
  subst new
  have watched := (watched_create policy network bus counting spare addrs).run punctual ran
  constructor
  · intro t silent told
    obtain ⟨p, hp, ending⟩ := watched.noted slot t _ told
    cases hw : f.workers[slot]? with
    | none => simp [watched.unknown slot hw] at hp
    | some w => exact ⟨p, hp, ending, (watched.watches slot w hw).fair p hp t silent ending⟩
  · intro w link deadline worker phase
    have reads := watched.watches slot w worker
    rw [phase] at reads
    obtain ⟨p, rest, same, current, -⟩ := reads.of_reading
    refine ⟨p, rest, same, current.going, fun silent more g later ran => ?_⟩
    exact (watched.awaited worker phase same).run watched silent later ran

/-- One worker with a bus for one message, and a peer that sends twice at once and then nothing. -/
def hushed : Fleet :=
  (create {} ⟨[("feed:1", [.settles 0 (.connected [(0, .sends [1]), (0, .sends [2])] none)])]⟩
    { capacity := 1 } true false).spawn ["feed:1"]

/-- The worker dials, connects and reads twice; the second message has to wait for four seconds until
the first one is received. -/
def hushedActs : List Act :=
  [.step 0, .step 0, .step 0, .step 0, .pass (Duration.seconds 4), .receive, .step 0]

/-- What the log of the worker tells then. -/
def hushedWatch : Watch where
  opened := 0
  peer := [(0, .sends [1]), (0, .sends [2])]
  heard := 0
  resumed := Duration.seconds 4

/-- After a message that had to wait for four seconds, the silence is noticed as late as it can be:
at the read deadline after the wait, six seconds after the last read. -/
theorem silence_of_run_hushed :
    ∃ f g, hushed.run? hushedActs = some f ∧
      f.run? [.pass (Duration.seconds 6), .step 0] = some g ∧
      (∃ p ∈ g.watches 0, p.ending = some (Duration.seconds 6, .idle (Duration.seconds 6)) ∧
        p.Stale {} (Duration.seconds 6) (Duration.seconds 6)) ∧
      hushedWatch.patience {} = Duration.seconds 6 ∧
      ∃ link, Awaited {} g 0 link hushedWatch [] := by
  have reads : (hushed.run? hushedActs).map (fun f => (f.workers[0]?.map (·.phase), f.watches 0)) =
      some (some (.reading ⟨⟨[]⟩, 1, 0⟩ (Duration.seconds 6)), [hushedWatch]) := by decide +kernel
  have gives : (hushed.run? (hushedActs ++ [.pass (Duration.seconds 6), .step 0])).map
      (fun g => (g.log 0).head?) =
        some (some (Duration.seconds 6, .exited (.idle (Duration.seconds 6)))) := by decide +kernel
  obtain ⟨f, ran, state⟩ := Option.map_eq_some_iff.1 reads
  obtain ⟨g, whole, last⟩ := Option.map_eq_some_iff.1 gives
  obtain ⟨reading, noted⟩ := Prod.mk.inj state
  obtain ⟨w, worker, phase⟩ := Option.map_eq_some_iff.1 reading
  have more : f.run? [.pass (Duration.seconds 6), .step 0] = some g := by
    simpa [run?_append, ran] using whole
  have stale := (silence_of_run rfl (by simp [hushedActs]) whole 0).1 _ _
    (List.mem_of_mem_head? last)
  obtain ⟨p, rest, same, -, awaited⟩ :=
    (silence_of_run rfl (by simp [hushedActs]) ran 0).2 w _ _ worker phase
  obtain ⟨rfl, rfl⟩ := List.cons.inj (noted.symm.trans same)
  exact ⟨f, g, ran, more, stale, by decide, _, awaited (by simp [Connection.nextAt]) _ g (by simp) more⟩

end FeedCapture.Fleet
