import FeedCapture.Proofs.Supervisor.Reachable

/-!
# Stopping a supervisor

The first call of stop ends whatever the workers are doing: from the moment of the signal no worker
dials, reads or puts a message on the bus, no time passes before all of them have ended, and what
was queued is received and then the stream ends (`stop_completes`).

## Main definitions

* `Supervision.Stopping` — what holds between the signal and any later moment
-/

namespace FeedCapture

namespace Fleet

variable {f g : Fleet}

/-- A worker that has ended stays as it is, whatever the others do. -/
theorem workers_of_ended {slot other : Nat} (h : f.stepWorker? slot = some g)
    (ended : ∀ w, f.workers[other]? = some w → w.ended = true) :
    g.workers[other]? = f.workers[other]? := by
  obtain ⟨w, s, hw, hs, rfl⟩ := exists_of_stepWorker? h
  refine workers_afterStep_of_ne f s ?_
  rintro rfl
  have done := ended w hw
  cases phase : w.phase <;> simp_all [Worker.ended, Worker.step?]

theorem now_of_stepWorker? {slot : Nat} (h : f.stepWorker? slot = some g) :
    g.hub.now = f.hub.now := by
  obtain ⟨w, s, hw, hs, rfl⟩ := exists_of_stepWorker? h
  exact (Worker.kept_of_transition (Worker.transition_of_step? hs)).now

/-- While some worker has not ended, somebody can go on, so the clock stands. -/
theorem Winding.canPass_eq_false {steps : Nat} {got : List Message} (h : Winding f g steps got)
    (going : g.leftToStop ≠ 0) (t : Instant) : g.canPass t = false := by
  obtain ⟨slot, g', hg⟩ := h.canStep going
  obtain ⟨w, s, hw, hs, -⟩ := exists_of_stepWorker? hg
  have can : g.canStep = true :=
    List.any_eq_true.2 ⟨w, List.mem_of_getElem? hw, by rw [hs]; rfl⟩
  simp [canPass, can]

end Fleet

namespace Supervision

open Supervisor

/-- The act concerns no call of stop but one. -/
def Act.spares (n : Nat) : Act → Bool
  | .poll m => m = n
  | .giveUp _ => false
  | _ => true

/-- A worker takes a step. -/
def Act.isStep : Act → Bool
  | .step _ => true
  | _ => false

/-- What holds between the signal of a call of stop and any later moment. -/
structure Stopping (n : Nat) (s t : Supervision) (steps : Nat) (got : List Message) : Prop where
  winding : Fleet.Winding s.supervisor.signal.fleet t.supervisor.fleet steps got
  spare : t.supervisor.fleet.spareSender = false
  stopped : t.supervisor.stopped = true
  clock : t.supervisor.fleet.hub.now = s.supervisor.fleet.hub.now ∨
    t.supervisor.fleet.leftToStop = 0
  joins : ∃ joined rest call, t.calls[n]? = some call ∧ Waits t.supervisor call rest ∧
    Joins (List.range s.supervisor.fleet.workers.length).reverse s.supervisor.past t.supervisor
      joined rest

namespace Stopping

variable {n : Nat} {s t u : Supervision} {steps : Nat} {got : List Message}

/-- The call joins workers after the signal. -/
theorem joinWorkers (first : Bool) (count : Nat) {supervisor : Supervisor}
    {joined rest : List Nat} {calls : List StopCall} (hn : n < calls.length)
    (winding : Fleet.Winding s.supervisor.signal.fleet supervisor.fleet steps got)
    (spare : supervisor.fleet.spareSender = false) (stopped : supervisor.stopped = true)
    (clock : supervisor.fleet.hub.now = s.supervisor.fleet.hub.now ∨
      supervisor.fleet.leftToStop = 0)
    (joins : Joins (List.range s.supervisor.fleet.workers.length).reverse s.supervisor.past
      supervisor joined rest) :
    Stopping n s
      { supervisor := (Supervisor.joinWorkers first count rest supervisor).1
        calls := calls.set n (Supervisor.joinWorkers first count rest supervisor).2 }
      steps got := by
  obtain ⟨joined', rest', joins', waits, -⟩ := joins.joinWorkers first count
  have call := List.getElem?_set_self (l := calls) (i := n)
    (a := (Supervisor.joinWorkers first count rest supervisor).2) hn
  rcases Supervisor.fleet_joinWorkers first count rest supervisor with same | same
  · exact ⟨same ▸ winding, same ▸ spare, by simp [stopped], same ▸ clock,
      joined', rest', _, call, waits, joins'⟩
  · exact ⟨same ▸ winding.closeBus, same ▸ spare, by simp [stopped], same ▸ clock,
      joined', rest', _, call, waits, joins'⟩

/-- The first poll of a call of stop signals the workers. -/
theorem signalled (tended : s.Tended) (unstopped : s.supervisor.stopped = false)
    (called : s.calls[n]? = some .fresh) (polled : s.act? (.poll n) = some t) :
    Stopping n s t 0 [] := by
  have signal := tended.signal s.calls
  have fired : s.supervisor.signal.fleet.Signalled := by
    have cancelled : s.supervisor.fleet.stop.Signalled :=
      TokenTree.fired_cancel tended.wired.stop
    exact (Registry.extends_closeAll _ _).fired cancelled
  have unjoined : s.supervisor.signal.unjoined.reverse =
      (List.range s.supervisor.fleet.workers.length).reverse := by
    rw [← tended.unjoined unstopped]
    rfl
  simp only [act?, called, Option.map_some, Option.some.injEq, pollStop, unstopped, Bool.not_false,
    if_true] at polled
  subst polled
  have joins : Joins (List.range s.supervisor.fleet.workers.length).reverse s.supervisor.past
      s.supervisor.signal [] (List.range s.supervisor.fleet.workers.length).reverse :=
    ⟨rfl, fun _ h => (by cases h), [(s.supervisor.fleet.hub.now, _)], rfl, rfl⟩
  rw [unjoined]
  exact joinWorkers true 0 (List.getElem?_eq_some_iff.1 called).1 (.start signal.wired fired)
    signal.spare rfl (.inl rfl) joins

/-- Later moments differ in what the workers, the receiver and the clock did. -/
theorem framed (h : Stopping n s t steps got) {fleet : Fleet} {steps' : Nat}
    {got' : List Message}
    (winding : Fleet.Winding s.supervisor.signal.fleet fleet steps' got')
    (spare : fleet.spareSender = t.supervisor.fleet.spareSender)
    (own : fleet.hub.bus.ownSender = t.supervisor.fleet.hub.bus.ownSender)
    (clock : fleet.hub.now = s.supervisor.fleet.hub.now ∨ fleet.leftToStop = 0)
    (done : ∀ slot : Nat,
      (∀ w : Worker, t.supervisor.fleet.workers[slot]? = some w → w.ended = true) →
        fleet.workers[slot]? = t.supervisor.fleet.workers[slot]?) :
    Stopping n s { t with supervisor := { t.supervisor with fleet } } steps' got' := by
  obtain ⟨joined, rest, call, hc, waits, joins⟩ := h.joins
  refine ⟨winding, spare.trans h.spare, h.stopped, clock, joined, rest, call, hc, ?_, ?_⟩
  · cases waits with
    | finished left closed => exact .finished left (own.trans closed)
    | joining left => exact .joining left
  · refine joins.congr (fun slot hslot => done slot fun w hw => ?_) rfl
    have ended := joins.ended slot hslot
    simpa [hasEnded, hw] using ended

/-- Whatever happens after the signal, if no other call of stop is polled or given up. -/
theorem act {a : Act} (h : Stopping n s t steps got) (alone : a.spares n = true)
    (hu : t.act? a = some u) :
    Stopping n s u (steps + if a.isStep then 1 else 0) (got ++ t.takes a) := by
  obtain ⟨joined, rest, call, hc, waits, joins⟩ := h.joins
  cases a with
  | start =>
    cases hu
    have same : t.supervisor.start = t.supervisor.note .alreadyStopped := by
      simp [Supervisor.start, h.stopped]
    simp only [Act.isStep, takes, List.append_nil, same]
    refine ⟨h.winding, h.spare, h.stopped, h.clock, joined, rest, call, hc, ?_, joins.note rfl⟩
    cases waits with
    | finished left closed => exact .finished left closed
    | joining left => exact .joining left
  | call =>
    cases hu
    simp only [Act.isStep, takes, List.append_nil]
    refine ⟨h.winding, h.spare, h.stopped, h.clock, joined, rest, call, ?_, waits, joins⟩
    rw [List.getElem?_append_left (List.getElem?_eq_some_iff.1 hc).1, hc]
  | poll m =>
    obtain rfl : m = n := by simpa [Act.spares] using alone
    simp only [act?, hc, Option.map_some, Option.some.injEq] at hu
    subst hu
    have hn := (List.getElem?_eq_some_iff.1 hc).1
    have same : ∀ c, call = c → Stopping m s { t with calls := t.calls.set m c } steps got := by
      rintro c rfl
      exact ⟨h.winding, h.spare, h.stopped, h.clock, joined, rest, call,
        List.getElem?_set_self hn, waits, joins⟩
    simp only [Act.isStep, takes, List.append_nil]
    cases waits with
    | finished left closed => exact same _ rfl
    | @joining first count slot rest left =>
      simp only [pollStop]
      split
      · next ended =>
        have unjoined : t.supervisor.unjoined.reverse = rest := by rw [left, List.reverse_reverse]
        have noted : (t.supervisor.noteJoin slot).unjoined = t.supervisor.unjoined := by
          unfold Supervisor.noteJoin
          split <;> rfl
        rw [noted, unjoined]
        exact joinWorkers first (count + 1) hn (by simpa using h.winding) (by simpa using h.spare)
          (by simpa using h.stopped) (by simpa using h.clock) (joins.noteJoin ended)
      · exact same _ rfl
  | giveUp m => cases alone
  | step slot =>
    obtain ⟨fleet, hf, rfl⟩ := Option.map_eq_some_iff.1 hu
    have frame := Fleet.framed_stepWorker? hf
    have winding := h.winding.step hf
    have clock : fleet.hub.now = s.supervisor.fleet.hub.now := by
      rw [Fleet.now_of_stepWorker? hf]
      refine h.clock.resolve_right fun finished => ?_
      have := h.winding.budget
      have := winding.budget
      omega
    simp only [takes, List.append_nil]
    exact h.framed winding frame.spare frame.own (.inl clock) fun other ended =>
      Fleet.workers_of_ended hf ended
  | receive =>
    obtain ⟨fleet, hf, rfl⟩ := Option.map_eq_some_iff.1 hu
    have frame := Fleet.framed_receive hf
    have winding := h.winding.receive hf
    obtain ⟨⟨m, g⟩, hr, rfl⟩ := Option.map_eq_some_iff.1 hf
    obtain ⟨⟨m', b⟩, ht, taken⟩ := Option.map_eq_some_iff.1 hr
    cases taken
    exact h.framed winding frame.spare frame.own h.clock fun _ _ => rfl
  | pass time =>
    obtain ⟨fleet, hf, rfl⟩ := Option.map_eq_some_iff.1 hu
    have frame := Fleet.framed_pass hf
    simp only [Fleet.act?, Option.ite_none_right_eq_some, Option.some.injEq] at hf
    obtain ⟨can, rfl⟩ := hf
    have finished : t.supervisor.fleet.leftToStop = 0 := by
      by_cases going : t.supervisor.fleet.leftToStop = 0
      · exact going
      · rw [h.winding.canPass_eq_false going] at can
        cases can
    have winding : Fleet.Winding s.supervisor.signal.fleet (t.supervisor.fleet.moveTo time)
        steps (got ++ []) :=
      h.winding.withHub (h.winding.wired.withHub rfl (.refl _) rfl) h.winding.signalled rfl
    exact h.framed winding frame.spare frame.own (.inr finished) fun _ _ => rfl

/-- Whatever happens in a run after the signal. -/
theorem run {acts : List Act} (h : Stopping n s t steps got)
    (alone : ∀ a ∈ acts, a.spares n = true) (ran : t.run? acts = some u) :
    Stopping n s u (steps + acts.countP Act.isStep) (got ++ t.received acts) := by
  induction acts generalizing t steps got with
  | nil =>
    cases ran
    simpa [received] using h
  | cons a acts ih =>
    obtain ⟨t', ht, ran⟩ := Option.bind_eq_some_iff.1 ran
    have next := h.act (alone a (by simp)) ht
    have last := ih next (fun b hb => alone b (by simp [hb])) ran
    simp only [received, ht, List.countP_cons]
    rw [← List.append_assoc, Nat.add_comm (acts.countP _), ← Nat.add_assoc]
    exact last

/-- As long as a worker has not ended, the clock stands and somebody can go on. -/
theorem going (h : Stopping n s t steps got)
    (busy : ∃ w ∈ t.supervisor.fleet.workers, w.ended = false) :
    t.supervisor.fleet.hub.now = s.supervisor.fleet.hub.now ∧
      (∀ time, t.act? (.pass time) = none) ∧ ∃ slot u, t.act? (.step slot) = some u := by
  have left : t.supervisor.fleet.leftToStop ≠ 0 := by
    rw [ne_eq, Fleet.leftToStop_eq_zero_iff]
    obtain ⟨w, hw, going⟩ := busy
    intro all
    rw [all w hw] at going
    cases going
  obtain ⟨slot, fleet, hf⟩ := h.winding.canStep left
  refine ⟨h.clock.resolve_right left, fun time => ?_, slot, _, Option.map_eq_some_iff.2
    ⟨fleet, hf, rfl⟩⟩
  simp [act?, actOfFleet?, Fleet.act?, h.winding.canPass_eq_false left]

/-- Once all workers have ended, the call of stop ends when it goes on. -/
theorem over_of_ended (h : Stopping n s t steps got)
    (all : ∀ w ∈ t.supervisor.fleet.workers, w.ended = true) :
    ∃ u, t.act? (.poll n) = some u ∧ u.calls[n]? = some .finished ∧
      u.supervisor.fleet.hub.now = t.supervisor.fleet.hub.now := by
  obtain ⟨joined, rest, call, hc, waits, joins⟩ := h.joins
  have hn := (List.getElem?_eq_some_iff.1 hc).1
  have ended : ∀ slot, t.supervisor.hasEnded slot = true := by
    intro slot
    unfold hasEnded
    split
    · next w hw => exact all w (List.mem_of_getElem? hw)
    · rfl
  refine ⟨_, by rw [act?, hc]; rfl, ?_⟩
  dsimp only
  cases waits with
  | finished left closed => exact ⟨List.getElem?_set_self hn, rfl⟩
  | @joining first count slot rest left =>
    have noted : (t.supervisor.noteJoin slot).unjoined = t.supervisor.unjoined := by
      unfold Supervisor.noteJoin
      split <;> rfl
    simp only [pollStop, ended, if_true, noted, left, List.reverse_reverse]
    obtain ⟨joined', rest', -, waits, next⟩ :=
      (joins.noteJoin (ended slot)).joinWorkers first (count + 1)
    have none : rest' = [] := by
      cases rest' with
      | nil => rfl
      | cons slot' rest' =>
        have going := next slot' rfl
        have same : (t.supervisor.noteJoin slot).hasEnded slot' = t.supervisor.hasEnded slot' :=
          hasEnded_congr (by rw [fleet_noteJoin])
        rw [same, ended] at going
        cases going
    subst none
    refine ⟨?_, ?_⟩
    · rw [List.getElem?_set_self hn]
      generalize (Supervisor.joinWorkers first (count + 1) rest (t.supervisor.noteJoin slot)).2 =
        call at waits
      cases waits
      rfl
    · rcases fleet_joinWorkers first (count + 1) rest (t.supervisor.noteJoin slot) with same | same
      · rw [same, fleet_noteJoin]
      · rw [same, fleet_noteJoin]
        rfl

/-- When the call of stop is over, all workers have ended and were joined. -/
theorem ended_of_over (h : Stopping n s t steps got) (finished : t.calls[n]? = some .finished) :
    (∀ w ∈ t.supervisor.fleet.workers, w.ended = true) ∧
      t.supervisor.fleet.hub.bus.ownSender = false ∧
      ∃ new, t.supervisor.past = new ++ s.supervisor.past ∧
        crashReports new = (List.range t.supervisor.fleet.workers.length).reverse.filterMap
          t.supervisor.crashOf := by
  obtain ⟨joined, rest, call, hc, waits, joins⟩ := h.joins
  obtain rfl : StopCall.finished = call := Option.some.inj (finished.symm.trans hc)
  have length : t.supervisor.fleet.workers.length = s.supervisor.fleet.workers.length :=
    h.winding.length
  cases waits with
  | finished left closed =>
    have all : (List.range s.supervisor.fleet.workers.length).reverse = joined := by
      simpa using joins.split
    refine ⟨fun w hw => ?_, closed, ?_⟩
    · obtain ⟨slot, hslot⟩ := List.getElem?_of_mem hw
      have known : slot ∈ joined := by
        rw [← all, List.mem_reverse, List.mem_range, ← length]
        exact (List.getElem?_eq_some_iff.1 hslot).1
      simpa [hasEnded, hslot] using joins.ended slot known
    · rw [length, all]
      exact joins.reports

end Stopping

/-! ## After the stop -/

/-- What is queued can be received, message by message. -/
theorem exists_run?_receive (t : Supervision) :
    ∃ u, t.run? (List.replicate t.supervisor.fleet.hub.bus.queue.length .receive) = some u ∧
      t.received (List.replicate t.supervisor.fleet.hub.bus.queue.length .receive) =
        t.supervisor.fleet.hub.bus.queue ∧
      u.supervisor.fleet.hub.bus.queue = [] ∧
      u.supervisor.fleet.hasSender = t.supervisor.fleet.hasSender := by
  generalize hq : t.supervisor.fleet.hub.bus.queue = queue
  induction queue generalizing t with
  | nil => exact ⟨t, rfl, rfl, hq, rfl⟩
  | cons m rest ih =>
    obtain ⟨b, ht⟩ : ∃ b, t.supervisor.fleet.hub.bus.take? = some (m, b) := by
      simp [Bus.take?, hq]
    have queue : b.queue = rest := by
      have := Bus.queue_of_take? ht
      simpa [hq] using this.symm
    obtain ⟨-, -, own⟩ := Bus.frame_of_take? ht
    let hub := { t.supervisor.fleet.hub with bus := b }
    let t' : Supervision := { t with supervisor :=
      { t.supervisor with fleet := { t.supervisor.fleet with hub } } }
    have acts : t.act? .receive = some t' := by
      simp [act?, actOfFleet?, Fleet.act?, Fleet.receive?, ht, t', hub]
    have takes : t.takes .receive = [m] := by simp [takes, Fleet.receive?, ht]
    obtain ⟨u, ran, got, empty, sender⟩ := ih t' queue
    refine ⟨u, ?_, ?_, empty, ?_⟩
    · simpa [List.replicate_succ, run?, acts] using ran
    · simp [List.replicate_succ, received, acts, takes, got]
    · rw [sender]
      simp [Fleet.hasSender, t', hub, own]

/-- A fleet whose workers have all ended has no live connections. -/
theorem entries_eq_nil_of_ended {f : Fleet} (wired : f.Wired)
    (all : ∀ w ∈ f.workers, w.ended = true) : f.hub.registry.entries = [] := by
  rw [List.eq_nil_iff_forall_not_mem]
  intro e he
  obtain ⟨w, link, hw, -, hl, -⟩ := wired.open_of_mem_entries he
  have ended := all w (List.mem_of_getElem? hw)
  cases phase : w.phase <;> simp_all [Worker.ended, Worker.Phase.open?]

/-- **The first call of stop ends everything.**  In any state that a supervisor can reach, let the
first call of stop signal the workers, and let anything happen afterwards except that another call
of stop goes on or this one is given up.  From the signal on no worker dials, reads or puts a
message on the bus, and what is received and what is still queued is what was queued at the signal.
The workers take two steps each at most.  Until all of them have ended the clock stands and one of
them can go on; from then on the call is over as soon as it goes on.  When it is over, all workers
have ended, no connection is registered, there is one report for each worker that broke down, and
what is still queued can be received, after which the stream ends. -/
theorem stop_completes {sources : List String} {policy : Policy} {network : Network}
    {counting : Bool} {supervisor : Supervisor} {before after : List Act} {n : Nat}
    {s signalled t : Supervision}
    (created : Supervisor.create sources policy network counting = .ok supervisor)
    (reached : run? { supervisor } before = some s)
    (unstopped : s.supervisor.stopped = false) (called : s.calls[n]? = some .fresh)
    (polled : s.act? (.poll n) = some signalled)
    (alone : ∀ a ∈ after, a.spares n = true) (ran : signalled.run? after = some t) :
    (∃ new, t.supervisor.fleet.past = new ++ s.supervisor.fleet.past ∧
      ∀ e ∈ new, e.2.2.isWork = false) ∧
    s.supervisor.fleet.hub.bus.queue =
      signalled.received after ++ t.supervisor.fleet.hub.bus.queue ∧
    after.countP Act.isStep ≤ 2 * s.supervisor.fleet.workers.length ∧
    ((∃ w ∈ t.supervisor.fleet.workers, w.ended = false) →
      t.supervisor.fleet.hub.now = s.supervisor.fleet.hub.now ∧
      (∀ time, t.act? (.pass time) = none) ∧ ∃ slot u, t.act? (.step slot) = some u) ∧
    ((∀ w ∈ t.supervisor.fleet.workers, w.ended = true) →
      ∃ u, t.act? (.poll n) = some u ∧ u.calls[n]? = some .finished ∧
        u.supervisor.fleet.hub.now = t.supervisor.fleet.hub.now) ∧
    (t.calls[n]? = some .finished →
      (∀ w ∈ t.supervisor.fleet.workers, w.ended = true) ∧
      t.supervisor.fleet.hub.registry.entries = [] ∧
      (∃ new, t.supervisor.past = new ++ s.supervisor.past ∧
        crashReports new = (List.range t.supervisor.fleet.workers.length).reverse.filterMap
          t.supervisor.crashOf) ∧
      ∃ u, t.run? (List.replicate t.supervisor.fleet.hub.bus.queue.length .receive) = some u ∧
        t.received (List.replicate t.supervisor.fleet.hub.bus.queue.length .receive) =
          t.supervisor.fleet.hub.bus.queue ∧
        u.supervisor.fleet.atEnd = true) := by
  have tended := tended_of_run? created reached
  have stopping := (Stopping.signalled tended unstopped called polled).run alone ran
  have queue : s.supervisor.fleet.hub.bus.queue = _ := stopping.winding.queue
  rw [List.nil_append] at queue
  refine ⟨stopping.winding.idle, queue, ?_, stopping.going, stopping.over_of_ended,
    fun finished => ?_⟩
  · have budget := stopping.winding.budget
    have bound := s.supervisor.signal.fleet.leftToStop_le
    have length : s.supervisor.signal.fleet.workers.length =
        s.supervisor.fleet.workers.length := rfl
    omega
  · obtain ⟨ended, closed, reports⟩ := stopping.ended_of_over finished
    obtain ⟨u, received, got, empty, sender⟩ := exists_run?_receive t
    have gone : u.supervisor.fleet.hasSender = false := by
      rw [sender]
      simp only [Fleet.hasSender, closed, stopping.spare, Bool.false_or, List.any_eq_false]
      intro w hw
      simp [ended w hw]
    exact ⟨ended, entries_eq_nil_of_ended stopping.winding.wired ended, reports, u, received, got,
      by simp [Fleet.atEnd, empty, gone]⟩

/-- Two sources and a bus for one message: the peer of the first source sends two messages, and the
dial of the second one breaks down. -/
def busy : Supervisor where
  sources := ["feed:1", "feed:2"]
  fleet := Fleet.create { busCapacity := 1 }
    ⟨[("feed:1", [.settles 0 (.connected [(0, .sends [1]), (0, .sends [2])] none)]),
      ("feed:2", [.settles 0 (.breaksDown "gone")])]⟩
    { capacity := 1 } true false

/-- The first worker puts a message on the bus and waits with the other one; the second worker
breaks down; a call of stop is made. -/
def busyActs : List Act :=
  [.start, .step 0, .step 0, .step 0, .step 0, .step 1, .step 1, .call]

/-- The call of stop ends although the first worker waits for room and nobody receives. -/
theorem stop_completes_busy :
    ∃ s signalled t, Supervisor.create busy.sources { busCapacity := 1 }
        busy.fleet.hub.network true = .ok busy ∧
      run? { supervisor := busy } busyActs = some s ∧ s.supervisor.stopped = false ∧
      s.calls[0]? = some .fresh ∧ s.act? (.poll 0) = some signalled ∧
      signalled.run? [.step 0, .step 0, .poll 0] = some t ∧ t.calls[0]? = some .finished ∧
      ∀ w ∈ t.supervisor.fleet.workers, w.ended = true := by
  have outcome : (run? { supervisor := busy } busyActs).map (fun s =>
      (s.supervisor.stopped, s.calls[0]?, ((s.act? (.poll 0)).bind fun signalled =>
        signalled.run? [.step 0, .step 0, .poll 0]).map fun t => t.calls[0]?)) =
      some (false, some .fresh, some (some .finished)) := by decide +kernel
  obtain ⟨s, reached, outcome⟩ := Option.map_eq_some_iff.1 outcome
  simp only [Prod.mk.injEq] at outcome
  obtain ⟨unstopped, called, outcome⟩ := outcome
  obtain ⟨t, ran, finished⟩ := Option.map_eq_some_iff.1 outcome
  obtain ⟨signalled, polled, ran⟩ := Option.bind_eq_some_iff.1 ran
  have created : Supervisor.create busy.sources { busCapacity := 1 } busy.fleet.hub.network true =
      .ok busy := rfl
  have completes := stop_completes created reached unstopped called polled
    (by decide) ran
  exact ⟨s, signalled, t, created, reached, unstopped, called, polled, ran, finished,
    (completes.2.2.2.2.2 finished).1⟩

end Supervision

end FeedCapture
