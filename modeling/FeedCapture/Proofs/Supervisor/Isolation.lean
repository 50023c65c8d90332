import FeedCapture.Proofs.Fleet.Alone
import FeedCapture.Proofs.Fleet.Gauge
import FeedCapture.Supervisor.Prompt

/-!
# Sources do not disturb each other

When messages are received at once and the workers are told to stop while everybody waits, what the
worker of a source does, and when, does not depend on the other sources.

## Main definitions

* `Supervision.Deed` — what an act is that keeps nobody waiting
* `Supervision.Course` — what a worker did since the start and since the signal to stop

The main statement compares a run with one that has a single source (`timeline_eq_alone`).
-/

namespace FeedCapture

open Transport

namespace Supervisor

/-- The times of start and signal, and whether there was one, are the same. -/
structure Keeps (s t : Supervisor) : Prop where
  started : t.started = s.started
  stopped : t.stopped = s.stopped
  startedAt? : t.startedAt? = s.startedAt?
  signalledAt? : t.signalledAt? = s.signalledAt?

theorem Keeps.refl (s : Supervisor) : Keeps s s := ⟨rfl, rfl, rfl, rfl⟩

theorem Keeps.trans {s t u : Supervisor} (st : Keeps s t) (tu : Keeps t u) : Keeps s u :=
  ⟨tu.started.trans st.started, tu.stopped.trans st.stopped,
    tu.startedAt?.trans st.startedAt?, tu.signalledAt?.trans st.signalledAt?⟩

/-- What is noted besides a start and a signal. -/
theorem keeps_note (s : Supervisor) {e : Event} (start : e.isStart = false)
    (signal : e.isSignal = false) : Keeps s (s.note e) :=
  ⟨rfl, rfl, by simp [Supervisor.startedAt?, doneAt?_note, start],
    by simp [Supervisor.signalledAt?, doneAt?_note, signal]⟩

theorem keeps_noteJoin (s : Supervisor) (slot : Nat) : Keeps s (s.noteJoin slot) := by
  unfold noteJoin
  split
  · exact keeps_note s rfl rfl
  · exact .refl s

theorem keeps_joinWorkers (first : Bool) (count : Nat) (slots : List Nat) (s : Supervisor) :
    Keeps s (joinWorkers first count slots s).1 := by
  induction slots generalizing s count with
  | nil =>
    have ended : Keeps s { s with unjoined := [], fleet := s.fleet.closeBus.1 } :=
      ⟨rfl, rfl, rfl, rfl⟩
    simp only [joinWorkers, finishStop]
    split
    · exact ended.trans (keeps_note _ rfl rfl)
    · exact ended.trans (keeps_note _ rfl rfl)
  | cons slot rest ih =>
    simp only [joinWorkers]
    split
    · exact (keeps_noteJoin s slot).trans (ih _ _)
    · exact ⟨rfl, rfl, rfl, rfl⟩

end Supervisor

namespace Worker

/-- What is said of the registry is not counted. -/
theorem meter_filter_isNotice (addr : String) (m : Metrics) (es : List Event) :
    meter addr m (es.filter fun e => !e.isNotice) = meter addr m es := by
  induction es generalizing m with
  | nil => rfl
  | cons e es ih => cases e <;> exact ih _

end Worker

namespace Supervision

open Supervisor

variable {s t : Supervision}

/-- What an act is that keeps nobody waiting. -/
inductive Deed (s t : Supervision) : Prop
  | goes (keeps : s.supervisor.Keeps t.supervisor)
      (fleet : s.supervisor.fleet.Goes t.supervisor.fleet)
  | starts (unstarted : s.supervisor.started = false) (unstopped : s.supervisor.stopped = false)
      (started : t.supervisor.started = true) (stopped : t.supervisor.stopped = false)
      (startedAt : t.supervisor.startedAt? = some s.supervisor.fleet.hub.now)
      (signalledAt : t.supervisor.signalledAt? = s.supervisor.signalledAt?)
      (fleet : t.supervisor.fleet = s.supervisor.fleet.spawn s.supervisor.sources)
  | signals (unstopped : s.supervisor.stopped = false) (settled : s.settled = true)
      (started : t.supervisor.started = s.supervisor.started)
      (stopped : t.supervisor.stopped = true)
      (startedAt : t.supervisor.startedAt? = s.supervisor.startedAt?)
      (signalledAt : t.supervisor.signalledAt? = some s.supervisor.fleet.hub.now)
      (fleet : s.supervisor.fleet.stop.closeAll.1.Goes t.supervisor.fleet)

/-- Joining leaves the fleet alone or closes the bus. -/
theorem goes_joinWorkers (first : Bool) (count : Nat) (slots : List Nat) (s : Supervisor) :
    s.fleet.Goes (joinWorkers first count slots s).1.fleet := by
  rcases fleet_joinWorkers first count slots s with same | closed
  · exact same ▸ .rests
  · exact closed ▸ .closesBus

theorem deed_of_poll {n : Nat} (prompt : s.isPrompt (.poll n) = true)
    (ht : s.act? (.poll n) = some t) : Deed s t := by
  obtain ⟨call, called, rfl⟩ := Option.map_eq_some_iff.1 ht
  cases call with
  | fresh =>
    simp only [pollStop]
    cases stopped : s.supervisor.stopped with
    | true =>
      simp only [Bool.not_true, Bool.false_eq_true, if_false]
      exact .goes (keeps_joinWorkers ..) (goes_joinWorkers ..)
    | false =>
      have settled : s.settled = true := by simpa [isPrompt, stopped, called] using prompt
      simp only [Bool.not_false, if_true]
      have keeps := keeps_joinWorkers true 0 s.supervisor.signal.unjoined.reverse
        s.supervisor.signal
      have noted : ∀ what : Event → Bool, s.supervisor.signal.doneAt? what =
          if what (.forceClosed s.supervisor.fleet.stop.closeAll.2) then
            some s.supervisor.fleet.hub.now
          else s.supervisor.doneAt? what := fun what => doneAt?_note _ _ what
      exact .signals stopped settled keeps.started keeps.stopped
        (keeps.startedAt?.trans (noted _)) (keeps.signalledAt?.trans (noted _))
        (goes_joinWorkers true 0 _ s.supervisor.signal)
  | joining first joined slot =>
    simp only [pollStop]
    split
    · have fleet := goes_joinWorkers first (joined + 1)
        (s.supervisor.noteJoin slot).unjoined.reverse (s.supervisor.noteJoin slot)
      rw [fleet_noteJoin] at fleet
      exact .goes ((keeps_noteJoin _ slot).trans (keeps_joinWorkers ..)) fleet
    · exact .goes (.refl _) .rests
  | finished => exact .goes (.refl _) .rests

theorem deed_of_act? {a : Act} (tended : s.Tended) (prompt : s.isPrompt a = true)
    (ht : s.act? a = some t) : Deed s t := by
  cases a with
  | start =>
    cases ht
    unfold Supervisor.start
    split
    · exact .goes (keeps_note _ rfl rfl) .rests
    · next unstopped =>
      have unstopped : s.supervisor.stopped = false := by simpa using unstopped
      split
      · exact .goes (keeps_note _ rfl rfl) .rests
      · next unstarted =>
        simp only [tended.sender unstopped, Bool.not_true, Bool.false_eq_true, if_false]
        exact .starts (by simpa using unstarted) unstopped rfl unstopped (doneAt?_note _ _ _)
          (doneAt?_note _ _ _) rfl
  | call =>
    cases ht
    exact .goes (.refl _) .rests
  | poll n => exact deed_of_poll prompt ht
  | giveUp n =>
    obtain ⟨call, called, rfl⟩ := Option.map_eq_some_iff.1 ht
    cases call with
    | joining first joined slot => exact .goes ⟨rfl, rfl, rfl, rfl⟩ .closesBus
    | fresh => exact .goes (.refl _) .rests
    | finished => exact .goes (.refl _) .rests
  | step slot =>
    obtain ⟨fleet, hf, rfl⟩ := Option.map_eq_some_iff.1 ht
    obtain ⟨w, step, worker, stepped, rfl⟩ := Fleet.exists_of_stepWorker? hf
    exact .goes ⟨rfl, rfl, rfl, rfl⟩ (.steps worker stepped)
  | receive =>
    obtain ⟨fleet, hf, rfl⟩ := Option.map_eq_some_iff.1 ht
    cases Fleet.change_of_act? hf with
    | receive taken => exact .goes ⟨rfl, rfl, rfl, rfl⟩ (.receives taken)
    | clock moves => rcases moves with c | c <;> cases c
  | pass time =>
    obtain ⟨fleet, hf, rfl⟩ := Option.map_eq_some_iff.1 ht
    simp only [Fleet.act?, Option.ite_none_right_eq_some, Option.some.injEq] at hf
    obtain ⟨can, rfl⟩ := hf
    exact .goes ⟨rfl, rfl, rfl, rfl⟩ (.passes can (by simpa [isPrompt] using prompt))

/-! ## What a worker did -/

variable {policy : Policy} {network : Network} {counting : Bool} {sources : List String}
  {slot : Nat} {addr : String}

/-- What the worker of a source did by itself since the workers were started, and since they were
told to stop. -/
inductive Course (policy : Policy) (network : Network) (counting : Bool) (sources : List String)
    (slot : Nat) (addr : String) (s : Supervision) : Prop
  | waiting {own : Bool} {t : Instant} (unstarted : s.supervisor.started = false)
      (unstopped : s.supervisor.stopped = false)
      (startedAt : s.supervisor.startedAt? = none) (signalledAt : s.supervisor.signalledAt? = none)
      (fleet : s.supervisor.fleet = .vacant policy network policy.busCapacity own counting t)
  /-- The workers were told to stop before there were any. -/
  | never (stopped : s.supervisor.stopped = true) (startedAt : s.supervisor.startedAt? = none)
      (none : s.supervisor.fleet.workers = []) (past : s.supervisor.fleet.past = [])
  | running {start : Instant} (started : s.supervisor.started = true)
      (startedAt : s.supervisor.startedAt? = some start)
      (signalledAt : s.supervisor.signalledAt? = none) (orderly : s.supervisor.fleet.Orderly)
      (tracks : s.supervisor.fleet.Tracks slot addr (.new policy (network.plan addr) addr start))
  | ending {start signal : Instant} {n : Nat} {last : Solo}
      (stopped : s.supervisor.stopped = true) (startedAt : s.supervisor.startedAt? = some start)
      (signalledAt : s.supervisor.signalledAt? = some signal)
      (reached : Solo.advance^[n] (.new policy (network.plan addr) addr start) = last)
      (waits : last.next? = none) (time : last.hub.now = signal)
      (orderly : s.supervisor.fleet.Orderly)
      (tracks : s.supervisor.fleet.Tracks slot addr last.signalled)

/-- When everybody waits, a worker waits by itself and has no message in hand. -/
theorem waits_of_settled (settled : s.settled = true) (orderly : s.supervisor.fleet.Orderly)
    {w : Worker} (hw : s.supervisor.fleet.workers[slot]? = some w) :
    (s.supervisor.fleet.solo w).next? = none ∧ w.phase.inHand = none := by
  simp only [Supervision.settled, Bool.and_eq_true, Bool.not_eq_true', List.isEmpty_iff] at settled
  have hand : w.phase.inHand = none := by
    rw [← Fleet.inHand_eq hw, orderly.inHand_eq_none settled.1 settled.2]
  have waits : w.step? s.supervisor.fleet.hub = none := by
    simpa using List.any_eq_false.1 settled.1 w (List.mem_of_getElem? hw)
  exact ⟨Solo.next?_eq_none waits hand (orderly.wired.each slot w hw) (orderly.steady hw), hand⟩

namespace Course

/-- Whatever happens, the worker goes on by itself. -/
theorem deed (h : Course policy network counting sources slot addr s) (deed : Deed s t)
    (distinct : sources.Nodup) (known : sources[slot]? = some addr)
    (room : 0 < policy.busCapacity) (same : s.supervisor.sources = sources) :
    Course policy network counting sources slot addr t := by
  cases h with
  | @waiting own time unstarted unstopped startedAt signalledAt fleet =>
    cases deed with
    | goes keeps goes =>
      rw [fleet] at goes
      obtain ⟨own', time', vacant⟩ := Fleet.exists_vacant_of_goes goes
      exact .waiting (keeps.started.trans unstarted) (keeps.stopped.trans unstopped)
        (keeps.startedAt?.trans startedAt) (keeps.signalledAt?.trans signalledAt) vacant
    | starts _ _ started' stopped' startedAt' signalledAt' fleet' =>
      rw [fleet, same] at fleet'
      rw [fleet] at startedAt'
      refine .running started' startedAt' (signalledAt'.trans signalledAt) ?_ ?_
      · exact fleet' ▸ Fleet.orderly_spawn distinct room
      · exact fleet' ▸ Fleet.tracks_spawn known
    | signals _ _ started' stopped' startedAt' _ goes =>
      obtain ⟨none, past⟩ := goes.idle (by rw [fleet]; rfl)
      refine .never stopped' (startedAt'.trans startedAt) none (past.trans ?_)
      rw [fleet]
      rfl
  | never stopped startedAt none past =>
    cases deed with
    | goes keeps goes =>
      obtain ⟨none', past'⟩ := goes.idle none
      exact .never (keeps.stopped.trans stopped) (keeps.startedAt?.trans startedAt) none'
        (past'.trans past)
    | starts _ unstopped => simp [stopped] at unstopped
    | signals unstopped => simp [stopped] at unstopped
  | running started startedAt signalledAt orderly tracks =>
    cases deed with
    | goes keeps goes =>
      obtain ⟨orderly', onward⟩ := orderly.goes goes
      exact .running (keeps.started.trans started) (keeps.startedAt?.trans startedAt)
        (keeps.signalledAt?.trans signalledAt) orderly' (tracks.onward onward)
    | starts unstarted => simp [started] at unstarted
    | signals _ settled _ stopped' startedAt' signalledAt' goes =>
      obtain ⟨w, n, hw, source, came⟩ := tracks
      obtain ⟨still, empty⟩ : s.supervisor.fleet.canStep = false ∧
          s.supervisor.fleet.hub.bus.queue = [] := by
        simpa [Supervision.settled] using settled
      have signalled : s.supervisor.fleet.stop.closeAll.1.Tracks slot addr
          (s.supervisor.fleet.solo w).signalled :=
        ⟨w, 0, hw, source, (orderly.solo_signal w).symm⟩
      obtain ⟨orderly', onward⟩ := (orderly.signal (orderly.inHand_eq_none still empty)).goes goes
      exact .ending stopped' (startedAt'.trans startedAt) signalledAt' came
        (waits_of_settled settled orderly hw).1 rfl orderly' (signalled.onward onward)
  | ending stopped startedAt signalledAt reached waits time orderly tracks =>
    cases deed with
    | goes keeps goes =>
      obtain ⟨orderly', onward⟩ := orderly.goes goes
      exact .ending (keeps.stopped.trans stopped) (keeps.startedAt?.trans startedAt)
        (keeps.signalledAt?.trans signalledAt) reached waits time orderly' (tracks.onward onward)
    | starts _ unstopped => simp [stopped] at unstopped
    | signals unstopped => simp [stopped] at unstopped

theorem run {acts : List Act} (h : Course policy network counting sources slot addr s)
    (tended : s.Tended) (distinct : sources.Nodup) (known : sources[slot]? = some addr)
    (room : 0 < policy.busCapacity) (same : s.supervisor.sources = sources)
    (ran : s.runPromptly? acts = some t) :
    Course policy network counting sources slot addr t := by
  induction acts generalizing s with
  | nil =>
    cases ran
    exact h
  | cons a acts ih =>
    simp only [runPromptly?, Option.ite_none_right_eq_some] at ran
    obtain ⟨prompt, ran⟩ := ran
    obtain ⟨s', hs, ran⟩ := Option.bind_eq_some_iff.1 ran
    exact ih (h.deed (deed_of_act? tended prompt hs) distinct known room same) (tended.act hs)
      ((sources_of_act? hs).trans same) ran

/-- Without a start nothing is done. -/
theorem timeline_eq_nil (h : Course policy network counting sources slot addr s)
    (unstarted : s.supervisor.startedAt? = none) : s.supervisor.fleet.timeline slot = [] := by
  cases h with
  | waiting _ _ _ _ fleet =>
    rw [fleet]
    rfl
  | never _ _ _ past => simp [Fleet.timeline, Fleet.log, past]
  | running _ startedAt => simp [unstarted] at startedAt
  | ending _ startedAt => simp [unstarted] at startedAt

/-- After a start the worker has come from there by itself, or from the signal to stop, at which it
waited. -/
theorem of_started {start : Instant} (h : Course policy network counting sources slot addr s)
    (started : s.supervisor.startedAt? = some start) :
    s.supervisor.fleet.Orderly ∧
      (s.supervisor.signalledAt? = none ∧
          s.supervisor.fleet.Tracks slot addr (.new policy (network.plan addr) addr start) ∨
        ∃ n last, Solo.advance^[n] (.new policy (network.plan addr) addr start) = last ∧
          last.next? = none ∧ s.supervisor.signalledAt? = some last.hub.now ∧
          s.supervisor.fleet.Tracks slot addr last.signalled) := by
  cases h with
  | waiting _ _ startedAt => simp [started] at startedAt
  | never _ startedAt => simp [started] at startedAt
  | running _ startedAt signalledAt orderly tracks =>
    obtain rfl : start = _ := Option.some.inj (started.symm.trans startedAt)
    exact ⟨orderly, .inl ⟨signalledAt, tracks⟩⟩
  | ending _ startedAt signalledAt reached waits time orderly tracks =>
    obtain rfl : start = _ := Option.some.inj (started.symm.trans startedAt)
    exact ⟨orderly, .inr ⟨_, _, reached, waits, by rw [time, signalledAt], tracks⟩⟩

end Course

/-- Workers that came from the same state by themselves, and wait at the same instant, did the
same. -/
theorem timeline_eq_of_tracks {other : Nat} {start : Solo}
    (hs : s.supervisor.fleet.Tracks slot addr start)
    (ht : t.supervisor.fleet.Tracks other addr start)
    (orderly : s.supervisor.fleet.Orderly) (orderly' : t.supervisor.fleet.Orderly)
    (settled : s.settled = true) (settled' : t.settled = true)
    (now : t.supervisor.fleet.hub.now = s.supervisor.fleet.hub.now) :
    t.supervisor.fleet.timeline other = s.supervisor.fleet.timeline slot := by
  obtain ⟨w, n, hw, -, came⟩ := hs
  obtain ⟨v, m, hv, -, came'⟩ := ht
  obtain ⟨waits, hand⟩ := waits_of_settled settled orderly hw
  obtain ⟨waits', hand'⟩ := waits_of_settled settled' orderly' hv
  have same := Solo.eq_of_iterate came' came waits' waits now
  have past := congrArg Solo.past same
  simpa [Fleet.solo, Solo.of, hand, hand', Worker.stamp, orderly.wired.slots slot w hw,
    orderly'.wired.slots other v hv] using past

/-- The counters of a source are those of what its worker did. -/
theorem ofSource_eq {supervisor : Supervisor} {acts : List Act} (distinct : sources.Nodup)
    (known : sources[slot]? = some addr)
    (created : Supervisor.create sources policy network counting = .ok supervisor)
    (ran : run? { supervisor } acts = some s) :
    s.supervisor.fleet.hub.metrics.ofSource addr =
      if counting then
        (Worker.meter addr {}
          ((s.supervisor.fleet.timeline slot).map Prod.snd).reverse).ofSource addr
      else Metrics.ofSource {} addr := by
  obtain ⟨gauged, same⟩ := gauged_of_run? created ran
  have events : ((s.supervisor.fleet.timeline slot).map Prod.snd).reverse =
      ((s.supervisor.fleet.log slot).map Prod.snd).reverse.filter fun e => !e.isNotice := by
    simp only [Fleet.timeline, List.filter_reverse, List.filter_map, Function.comp_def]
  rw [gauged.ofSource distinct known, same, events, Worker.meter_filter_isNotice]

/-- A new supervisor has done nothing yet. -/
theorem Course.create {supervisor : Supervisor} {acts : List Act} (distinct : sources.Nodup)
    (known : sources[slot]? = some addr)
    (created : Supervisor.create sources policy network counting = .ok supervisor)
    (ran : runPromptly? { supervisor } acts = some s) :
    Course policy network counting sources slot addr s := by
  have tended := tended_create created
  obtain ⟨-, built, rfl⟩ := Supervisor.create_eq_ok created
  have room : 0 < policy.busCapacity := by
    refine Nat.pos_of_ne_zero fun none => ?_
    rw [none] at built
    cases built
  have vacant : Fleet.create policy network { capacity := policy.busCapacity } counting false =
      .vacant policy network policy.busCapacity true counting 0 := rfl
  exact (Course.waiting rfl rfl rfl rfl vacant).run tended distinct known room rfl ran

/-- **Sources do not disturb each other.**  Compare two runs of supervisors under the same policy:
one with distinct sources, and one with a single of them, whose dials are planned in the same way.
In both, messages are received at once, the workers are started at the same time and told to stop at
the same time, if at all, while everybody waits.  Whenever everybody waits in both at the same
instant, the worker of the source has done the same at the same times in both: the dials, the
changes of the link, the kinds of reconnect, the messages and all else but what it says of the
registry, where it is named by its slot.  The counters of the source are the same, too. -/
theorem timeline_eq_alone {network' : Network} {crowd single : Supervisor}
    {acts acts' : List Act} (distinct : sources.Nodup) (known : sources[slot]? = some addr)
    (created : Supervisor.create sources policy network counting = .ok crowd)
    (created' : Supervisor.create [addr] policy network' counting = .ok single)
    (plan : network'.plan addr = network.plan addr)
    (ran : runPromptly? { supervisor := crowd } acts = some s)
    (ran' : runPromptly? { supervisor := single } acts' = some t)
    (settled : s.settled = true) (settled' : t.settled = true)
    (now : t.supervisor.fleet.hub.now = s.supervisor.fleet.hub.now)
    (started : t.supervisor.startedAt? = s.supervisor.startedAt?)
    (signalled : t.supervisor.signalledAt? = s.supervisor.signalledAt?) :
    t.supervisor.fleet.timeline 0 = s.supervisor.fleet.timeline slot ∧
      t.supervisor.fleet.hub.metrics.ofSource addr =
        s.supervisor.fleet.hub.metrics.ofSource addr := by
  have alone : [addr].Nodup := List.nodup_singleton addr
  have known' : [addr][0]? = some addr := rfl
  have course := Course.create distinct known created ran
  have course' := Course.create alone known' created' ran'
  have timeline : t.supervisor.fleet.timeline 0 = s.supervisor.fleet.timeline slot := by
    cases start : s.supervisor.startedAt? with
    | none => rw [course.timeline_eq_nil start, course'.timeline_eq_nil (started.trans start)]
    | some time =>
      obtain ⟨orderly, since⟩ := course.of_started start
      obtain ⟨orderly', since'⟩ := course'.of_started (started.trans start)
      rw [plan] at since'
      rcases since with ⟨going, tracks⟩ | ⟨n, last, reached, waits, signal, tracks⟩
      · rcases since' with ⟨-, tracks'⟩ | ⟨_, _, _, _, signal', _⟩
        · exact timeline_eq_of_tracks tracks tracks' orderly orderly' settled settled' now
        · rw [signalled, going] at signal'
          cases signal'
      · rcases since' with ⟨going', _⟩ | ⟨m, last', reached', waits', signal', tracks'⟩
        · rw [signalled, signal] at going'
          cases going'
        · have time : last'.hub.now = last.hub.now := by
            rw [signalled, signal] at signal'
            exact (Option.some.inj signal').symm
          obtain rfl := Solo.eq_of_iterate reached' reached waits' waits time
          exact timeline_eq_of_tracks tracks tracks' orderly orderly' settled settled' now
  refine ⟨timeline, ?_⟩
  rw [ofSource_eq distinct known created (run?_of_runPromptly? ran),
    ofSource_eq alone known' created' (run?_of_runPromptly? ran'), timeline]

/-- A source whose peer sends two messages after a millisecond. -/
def lonely : Supervisor where
  sources := ["feed:1"]
  fleet := Fleet.create { busCapacity := 1 }
    ⟨[("feed:1",
      [.settles 0 (.connected [(Duration.millis 1, .sends [1]), (0, .sends [2])] none)])]⟩
    { capacity := 1 } true false

/-- The same source, and one whose peer sends a message at the same time, after which the read
breaks down. -/
def crowded : Supervisor where
  sources := ["feed:1", "feed:2"]
  fleet := Fleet.create { busCapacity := 1 }
    ⟨[("feed:1",
      [.settles 0 (.connected [(Duration.millis 1, .sends [1]), (0, .sends [2])] none)]),
      ("feed:2",
      [.settles 0 (.connected [(Duration.millis 1, .sends [7]), (0, .breaksDown "gone")] none)])]⟩
    { capacity := 1 } true false

/-- The messages are queued and received one after the other, and the capture is stopped. -/
def lonelyActs : List Act :=
  [.start, .step 0, .step 0, .pass (Duration.millis 1), .step 0, .receive, .step 0, .receive,
    .call, .poll 0, .step 0, .step 0]

/-- The other worker takes the only place on the bus first, and both messages of the source have to
wait for room. -/
def crowdedActs : List Act :=
  [.start, .step 0, .step 1, .step 1, .step 0, .pass (Duration.millis 1), .step 1, .step 0, .step 1,
    .receive, .step 0, .step 0, .receive, .step 0, .receive, .call, .poll 0, .step 0, .step 0]

/-- The two messages of the source are on the bus at the same time as without the other source. -/
theorem timeline_eq_alone_crowded :
    ∃ s t, Supervisor.create crowded.sources { busCapacity := 1 } crowded.fleet.hub.network true =
        .ok crowded ∧
      Supervisor.create ["feed:1"] { busCapacity := 1 } lonely.fleet.hub.network true =
        .ok lonely ∧
      runPromptly? { supervisor := crowded } crowdedActs = some s ∧
      runPromptly? { supervisor := lonely } lonelyActs = some t ∧
      t.supervisor.fleet.timeline 0 = s.supervisor.fleet.timeline 0 ∧
      t.supervisor.fleet.hub.metrics.ofSource "feed:1" =
        s.supervisor.fleet.hub.metrics.ofSource "feed:1" ∧
      (s.supervisor.fleet.hub.metrics.ofSource "feed:1").messages = 2 := by
  have crowd : (runPromptly? { supervisor := crowded } crowdedActs).map (fun s =>
      (s.settled, s.supervisor.fleet.hub.now, s.supervisor.startedAt?,
        s.supervisor.signalledAt?, (s.supervisor.fleet.hub.metrics.ofSource "feed:1").messages)) =
      some (true, 1000000, some 0, some 1000000, 2) := by decide +kernel
  have single : (runPromptly? { supervisor := lonely } lonelyActs).map (fun t =>
      (t.settled, t.supervisor.fleet.hub.now, t.supervisor.startedAt?,
        t.supervisor.signalledAt?)) = some (true, 1000000, some 0, some 1000000) := by
    decide +kernel
  obtain ⟨s, ran, facts⟩ := Option.map_eq_some_iff.1 crowd
  obtain ⟨t, ran', facts'⟩ := Option.map_eq_some_iff.1 single
  simp only [Prod.mk.injEq] at facts facts'
  obtain ⟨settled, now, started, signalled, messages⟩ := facts
  obtain ⟨settled', now', started', signalled'⟩ := facts'
  have created : Supervisor.create crowded.sources { busCapacity := 1 }
      crowded.fleet.hub.network true = .ok crowded := rfl
  have created' : Supervisor.create ["feed:1"] { busCapacity := 1 } lonely.fleet.hub.network true =
      .ok lonely := rfl
  have known : crowded.sources[0]? = some "feed:1" := rfl
  have plan : lonely.fleet.hub.network.plan "feed:1" =
      crowded.fleet.hub.network.plan "feed:1" := by decide +kernel
  have same := timeline_eq_alone (by decide) known created created' plan ran ran' settled settled'
    (now'.trans now.symm) (started'.trans started.symm) (signalled'.trans signalled.symm)
  exact ⟨s, t, created, created', ran, ran', same.1, same.2, messages⟩

end Supervision

end FeedCapture
