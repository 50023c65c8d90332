import FeedCapture.Proofs.Worker.Outage

/-!
# Outages in the runs of a fleet

In every run of a fleet, whatever the dials come to and however connections end, a dial that
succeeds is called by the time since the last connection of its worker ended, and the first one is
called so.  A worker has noted an outage when it had a connection before and has none.

The main statement is `outage_of_run`.
-/

namespace FeedCapture

namespace Fleet

open Transport Worker

variable {policy : Policy} {network : Network} {bus : Bus Nat} {counting spare : Bool}
  {addrs : List String} {start f : Fleet} {acts : List Act} {slot : Nat}

/-- At any time, what the workers have noted about outages agrees with their logs. -/
theorem tracked_of_run (new : start = (create policy network bus counting spare).spawn addrs)
    (ran : start.run? acts = some f) (slot : Nat) :
    Holds (fun _ => Tracked) slot f := by
  subst new
  exact (holds_spawn tracked_new slot).run (fun tracked step => tracked.transition step)
    (fun tracked le => tracked.later le) ran

/-- **Outages.**  In every run of a fleet: a dial that succeeds is called first if there was no
connection before, and otherwise by the time since the last connection ended.  And a worker that has
not broken down has noted an outage when it had a connection before and has none now, from the end
of that connection on; so none is taken to have lasted no time for want of a start. -/
theorem outage_of_run (new : start = (create policy network bus counting spare).spawn addrs)
    (ran : start.run? acts = some f) (slot : Nat) :
    (∀ later earlier t peer tuning,
      f.log slot = later ++ (t, .dialEnded (.connected peer tuning)) :: earlier →
        ∃ r since, later = since ++ (t, .connected r) :: logged t (tune policy tuning) ∧
          Classified policy.outage t earlier r) ∧
    ∀ w, f.workers[slot]? = some w → w.phase.crash? = none →
      (w.outage.downSince.isSome = true ↔
        (∃ x ∈ f.log slot, x.2.reaches = true) ∧ w.isConnected = false) ∧
      (∀ e, w.outage.downSince = some e → LostAt e (f.log slot)) ∧
      (w.isConnected = false → w.outage.everConnected = true → w.outage.downSince ≠ none) := by
  have fresh : start.log slot = [] := by rw [new]; rfl
  constructor
  · intro later earlier t peer tuning split
    obtain ⟨m, pre, post, made⟩ := exists_moment ran fresh split
    obtain ⟨rfl, ⟨due, phase⟩, step⟩ := dialEnded_of_events m.taken made.events
    have tracked := tracked_of_run new m.reached slot m.worker m.here
    have obeys := m.obeys new
    obtain rfl : m.fleet.hub.now = t := made.now
    obtain rfl : earlier = m.fleet.log slot := made.earlier
    have shut : m.worker.isConnected = false := by simp [isConnected, phase, Phase.link]
    have called := tracked.classified shut (by rw [phase]; rfl) m.fleet.hub.policy.outage
    have events := made.events
    rw [step, List.nil_append] at events
    obtain ⟨-, rfl⟩ := List.cons.inj events
    obtain ⟨since, rfl⟩ := made.later
    rw [obeys] at called
    obtain ⟨rest, told⟩ : ∃ rest, (connect m.fleet.hub m.worker peer tuning).events =
        tune m.fleet.hub.policy tuning ++
          .connected (m.worker.outage.markUp m.fleet.hub.now m.fleet.hub.policy.outage).2 :: rest :=
      ⟨_, events_connect ..⟩
    refine ⟨_, since ++ logged m.fleet.hub.now rest, ?_, called⟩
    simp [Worker.dialEnded, told, obeys]
  · intro w here whole
    have tracked := tracked_of_run new ran slot w here
    have known : w.outage.everConnected = true ↔ ∃ x ∈ f.log slot, x.2.reaches = true := by
      rw [tracked.ever, List.any_eq_true]
    refine ⟨⟨fun noted => ?_, ?_⟩, fun e since => ?_, fun shut ever =>
      tracked.down shut whole ever⟩
    · have noted := Option.isSome_iff_ne_none.1 noted
      refine ⟨known.1 (tracked.met noted), Bool.eq_false_iff.2 fun connected => ?_⟩
      exact noted (by rw [tracked.up connected])
    · rintro ⟨before, shut⟩
      exact Option.isSome_iff_ne_none.2 (tracked.down shut whole (known.2 before))
    · exact lostAt_of_lostAt? (tracked.since.symm.trans since)

/-- One worker whose dials fail and succeed in turns; the first peer ends its stream at once. -/
def patchy : Fleet :=
  (create {}
    ⟨[("feed:1", [.refusedAtOnce, .settles 0 (.connected [(0, .ends)] none), .refusedAtOnce,
      .settles 0 (.connected [] none)])]⟩
    { capacity := 1 } true false).spawn ["feed:1"]

/-- The worker dials in vain, pauses for five seconds, connects, loses the connection at once, and
goes through the same again. -/
def patchyActs : List Act :=
  [.step 0, .step 0, .pass (Duration.seconds 5), .step 0, .step 0, .step 0, .step 0, .step 0,
    .step 0, .pass (Duration.seconds 10), .step 0, .step 0, .step 0]

/-- The second connection is called a hiccup of five seconds: the dial that failed in between did
not move the start of the outage. -/
theorem outage_of_run_patchy :
    ∃ f, patchy.run? patchyActs = some f ∧
      Classified {} (Duration.seconds 10) ((f.log 0).drop 5) (.hiccup (Duration.seconds 5)) := by
  have told : (patchy.run? patchyActs).map (fun f => (f.log 0).take 5) =
      some [(Duration.seconds 10, .link .dialing .connected),
        (Duration.seconds 10, .registry (.registered ⟨0, "feed:1"⟩)),
        (Duration.seconds 10, .connected (.hiccup (Duration.seconds 5))),
        (Duration.seconds 10, .untunable),
        (Duration.seconds 10, .dialEnded (.connected [] none))] := by decide +kernel
  obtain ⟨f, ran, first⟩ := Option.map_eq_some_iff.1 told
  have split := (List.take_append_drop 5 (f.log 0)).symm
  rw [first] at split
  obtain ⟨r, since, later, called⟩ := (outage_of_run rfl ran 0).1
    [_, _, _, _] ((f.log 0).drop 5) (Duration.seconds 10) [] none split
  have same : .hiccup (Duration.seconds 5) = r := by
    have turned := congrArg (·.reverse[1]?) later
    simpa [tune] using turned
  exact ⟨f, ran, same ▸ called⟩

end Fleet

end FeedCapture
