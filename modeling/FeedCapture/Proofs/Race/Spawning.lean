import FeedCapture.Proofs.Race.Handles

/-!
# Who starts the workers

However calls of start and of stop race: the workers are started by one call, one for each source
and in the order of the sources, or not at all.  Once the flag is set nobody is started any more.
No handle is taken twice, and a call of start never finds the bus closed.

The main statement is `Race.spawned_of_race`.
-/

namespace FeedCapture.Race

variable {r t : Race} {a : Act} {acts : List Act}

/-! ## The bus is never found closed -/

/-- No call of start found the bus closed. -/
def Opened (r : Race) : Prop := ∀ e ∈ r.supervisor.past, e.2 ≠ .cannotStart

theorem Opened.note {s : Supervisor} (h : ∀ e ∈ s.past, e.2 ≠ .cannotStart)
    {e : Supervisor.Event} (other : e ≠ .cannotStart) :
    ∀ e' ∈ (s.note e).past, e'.2 ≠ .cannotStart := by
  intro e' mem
  rcases List.mem_cons.1 mem with rfl | mem
  · exact other
  · exact h e' mem

theorem Opened.act (h : r.Opened) (quiet : r.Quiet) {spawned : List Nat}
    (course : Course r spawned) (ht : r.act? a = some t) : t.Opened := by
  cases change_of_act? ht with
  | started => exact h
  | stopped => exact h
  | start made free goes =>
    cases goes with
    | refused closed =>
      -- the flag is not set while the call holds the lock, so the bus has its own sender
      obtain ⟨-, unstopped, -⟩ := course.of_entered made
      rw [quiet.sender unstopped] at closed
      cases closed
    | tooLate => exact Opened.note h (by simp)
    | again => exact Opened.note h (by simp)
    | leaves => exact Opened.note h (by simp)
    | enters => exact h
    | equips => exact h
    | spawns => exact h
  | stop made free goes =>
    cases goes with
    | closes => exact Opened.note h (by simp)
    | joins ended =>
      show ∀ e ∈ (Supervisor.noteJoin _ _).past, _
      unfold Supervisor.noteJoin
      split
      · exact Opened.note h (by simp)
      · exact h
    | finishes =>
      refine Opened.note h ?_
      split <;> simp
    | _ => exact h
  | giveUp made drops => cases drops <;> exact h
  | fleet kind act => exact h

theorem opened_of_run? {sources : List String} {policy : Policy} {network : Network}
    {counting : Bool} {supervisor : Supervisor}
    (created : Supervisor.create sources policy network counting = .ok supervisor)
    (ran : run? { supervisor } acts = some t) : t.Opened := by
  refine induction_of_run? (P := fun _ r => r.Opened) ?_ (fun {xs a r u} before h act => ?_) ran
  · obtain ⟨-, -, rfl⟩ := Supervisor.create_eq_ok created
    exact fun _ h => absurd h List.not_mem_nil
  · exact h.act (quiet_of_run? created before) (course_of_run? created before) act

/-! ## One call starts all workers -/

/-- The calls that start workers are one and the same. -/
theorem Course.spawned_eq {spawned : List Nat} (h : Course r spawned) :
    ∃ n, spawned = List.replicate r.fleet.workers.length n := by
  cases h with
  | idle _ _ count _ nobody => exact ⟨0, by rw [nobody, count, List.replicate_zero]⟩
  | entered _ _ _ _ count _ nobody => exact ⟨0, by rw [nobody, count, List.replicate_zero]⟩
  | spawning _ _ _ _ count _ by_call => exact ⟨_, by rw [by_call, count]⟩
  | returned _ _ count _ by_call => exact ⟨_, by rw [by_call, count]⟩

/-- **One call of start starts all workers, or none does.**  However calls of start and of stop race
and are given up.  All workers are started by one call, in the order of the sources and under their
slots; unless a call is at it, there is none or one for each source.  Once the flag is set, nobody
is started any more.  No two calls of stop take one handle, and a call waits only for a worker whose
handle it has taken.  No call of start finds the bus closed. -/
theorem spawned_of_race {sources : List String} {policy : Policy} {network : Network}
    {counting : Bool} {supervisor : Supervisor}
    (created : Supervisor.create sources policy network counting = .ok supervisor)
    (ran : run? { supervisor } acts = some r) :
    (∃ n, spawners { supervisor } acts = List.replicate r.fleet.workers.length n) ∧
    r.fleet.workers.map (·.key) =
      (sources.mapIdx SourceKey.mk).take r.fleet.workers.length ∧
    ((∀ c ∈ r.starts, c = .fresh ∨ c = .returned) →
      r.fleet.workers.length = 0 ∨ r.fleet.workers.length = sources.length) ∧
    (∀ before after u, acts = before ++ after → run? { supervisor } before = some u →
      u.supervisor.stopped = true →
        u.spawners after = [] ∧ r.fleet.workers.map (·.key) = u.fleet.workers.map (·.key)) ∧
    ((taken { supervisor } acts).map Prod.snd).Nodup ∧
    (∀ (n : Nat) (first : Bool) (joined slot : Nat),
      r.stops[n]? = some (.joining first joined slot) → (n, slot) ∈ taken { supervisor } acts) ∧
    ∀ e ∈ r.supervisor.past, e.2 ≠ .cannotStart := by
  have same : r.supervisor.sources = sources := by
    rw [sources_of_run? ran, (Supervisor.create_eq_ok created).2.2]
  have course := course_of_run? created ran
  have manned := manned_of_run? created ran
  have handled := handled_of_run? created ran
  refine ⟨course.spawned_eq, same ▸ manned.keys, fun settled => ?_, ?_, ?_, ?_,
    opened_of_run? created ran⟩
  · have free : Starting.Free r.starts := fun c hc => by
      rcases settled c hc with rfl | rfl <;> rfl
    obtain ⟨-, ⟨-, none, -⟩ | ⟨-, all, -⟩⟩ := course.of_free free
    · exact .inl none
    · exact .inr (all.trans (congrArg _ same))
  · rintro before after u rfl first stopped
    rw [run?_append first] at ran
    obtain ⟨-, -, nobody, own, keep, went, -⟩ :=
      (course_of_run? created first).run_of_stopped (quiet_of_run? created first) stopped ran
    exact ⟨nobody, Fleet.keys_of_run? went⟩
  · exact (List.nodup_append.1 (handled.perm.nodup_iff.2 List.nodup_range)).2.1
  · exact fun n first joined slot made => handled.own n _ slot made rfl

/-- Two sources whose peers accept and then say nothing. -/
def paired : Supervisor where
  sources := ["feed:1", "feed:2"]
  fleet := Fleet.create {}
    ⟨[("feed:1", [.settles 0 (.connected [] none)]), ("feed:2", [.settles 0 (.connected [] none)])]⟩
    { capacity := 1000 } false false

/-- Two calls of start and two of stop race: the second call of start gets the lock first, and the
first worker runs before the other one is started; the first call of start comes after the flag;
each call of stop takes a handle. -/
def racing : List Act :=
  [.start, .start, .stop, .stop, .goStart 1, .goStart 1, .goStart 1, .step 0, .goStart 1,
    .goStart 1, .goStop 1, .goStart 0, .goStop 0, .goStop 0, .goStop 1, .goStop 1, .goStop 1]

/-- The second call of start has started both workers, and the calls of stop wait for one each. -/
theorem spawned_of_race_racing :
    ∃ r n, Supervisor.create paired.sources {} paired.fleet.hub.network false = .ok paired ∧
      run? { supervisor := paired } racing = some r ∧
      r.fleet.workers.length = 2 ∧
      spawners { supervisor := paired } racing = List.replicate 2 n ∧
      r.fleet.workers.map (·.key) = [⟨0, "feed:1"⟩, ⟨1, "feed:2"⟩] ∧
      r.stops = [.joining false 0 1, .joining true 0 0] ∧
      taken { supervisor := paired } racing = [(0, 1), (1, 0)] ∧
      ∀ e ∈ r.supervisor.past, e.2 ≠ .cannotStart := by
  have outcome : (run? { supervisor := paired } racing).map (fun r =>
      (r.fleet.workers.length, r.stops)) =
        some (2, [.joining false 0 1, .joining true 0 0]) := by decide +kernel
  obtain ⟨r, ran, same⟩ := Option.map_eq_some_iff.1 outcome
  obtain ⟨count, stops⟩ := Prod.mk.inj same
  have created : Supervisor.create paired.sources {} paired.fleet.hub.network false =
    .ok paired := rfl
  have took : taken { supervisor := paired } racing = [(0, 1), (1, 0)] := by decide +kernel
  obtain ⟨⟨n, spawned⟩, keys, -, -, -, -, opened⟩ := spawned_of_race created ran
  rw [count] at spawned keys
  exact ⟨r, n, created, ran, count, spawned, keys, stops, took, opened⟩

end FeedCapture.Race
