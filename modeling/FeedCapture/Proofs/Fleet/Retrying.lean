import FeedCapture.Proofs.Fleet.Linking
import FeedCapture.Proofs.Worker.Retrying
import FeedCapture.Worker.Report

/-!
# Retries in the runs of a fleet

In every run of a fleet a worker says of every dial that fails how many failed in a row, the first
one louder than the others.  After a failed dial it dials again when a fixed time has passed, however
many failed before, and after the end of a connection at once, unless it is told to stop before.  No
number of failures makes it give up.

## Main definitions

* `Network.Refuses` — all that is planned for an address is that its dials fail
* `Fleet.Announces` — how a failed dial is reported, by its number
* `Fleet.Redialed` — what a worker that is to dial again has done since
* `Fleet.Hapless` — a worker that goes on, and whose dials all fail

The main statement is `retries_of_run`.
-/

namespace FeedCapture

open Transport Worker

/-- All that is planned for an address is that its dials fail. -/
def Network.Refuses (n : Network) (addr : String) : Prop :=
  ∀ dial ∈ n.plan addr, ∃ delay e, dial = .settles delay (.refused e)

/-- The next dial fails, and so do those after it. -/
theorem Network.Refuses.dial {n : Network} {addr : String} (refuses : n.Refuses addr) :
    (∃ delay e, (n.dial addr).1 = .settles delay (.refused e)) ∧ (n.dial addr).2.Refuses addr := by
  constructor
  · rw [n.dial_fst]
    cases planned : n.plan addr with
    | nil => exact ⟨_, _, rfl⟩
    | cons next rest => exact refuses next (by simp [planned])
  · intro dial mem
    rw [n.plan_dial_self] at mem
    exact refuses dial (List.mem_of_mem_tail mem)

namespace Fleet

variable {policy : Policy} {network : Network} {bus : Bus Nat} {counting spare : Bool}
  {addrs : List String} {start f : Fleet} {acts : List Act} {slot : Nat} {due : Instant}
  {later earlier : List (Instant × Event)}

/-! ## The reports -/

/-- How many dials a worker has begun, by its log. -/
def dials (log : List (Instant × Event)) : Nat := log.countP fun x => x.2 = .dialed

/-- The first dial that fails in a row is reported as a warning, and each later one for whoever
looks for faults, with its number. -/
def Announces (n : Nat) (entry : Log.Entry) : Prop :=
  entry.level = (if n = 1 then .warn else .debug) ∧
    (n ≠ 1 → ("attempt", .number n) ∈ entry.fields)

theorem announces_dialFailedReport (e : Failure) (attempt : UInt64) (delay : Duration) :
    Announces attempt.toNat (dialFailedReport e attempt delay) := by
  by_cases one : attempt = 1
  · simp [Announces, dialFailedReport, one]
  · have other : attempt.toNat ≠ 1 := fun same => one (UInt64.toNat_inj.1 same)
    simp [Announces, dialFailedReport, one, other]

/-- At any time, the workers have counted the failures that their logs tell. -/
theorem failedDials_of_run (new : start = (create policy network bus counting spare).spawn addrs)
    (ran : start.run? acts = some f) (slot : Nat) :
    Holds (fun _ _ w log => w.failedDials = .ofNat (failuresInRow log)) slot f := by
  subst new
  exact (holds_spawn (fun _ => rfl) slot).run (fun counts step => failedDials_of_transition counts step)
    (fun counts _ => counts) ran

/-- What a worker says of a dial that failed. -/
theorem told_of_refused (new : start = (create policy network bus counting spare).spawn addrs)
    (ran : start.run? acts = some f) {t : Instant} {e : Failure}
    (split : f.log slot = later ++ (t, .dialEnded (.refused e)) :: earlier) :
    ∃ since, later = since ++
      [(t, .dialFailed e (.ofNat (failuresInRow earlier + 1)) policy.reconnectDelay),
        (t, .link .dialing .disconnected)] := by
  obtain ⟨m, pre, post, made⟩ := exists_moment ran (by rw [new]; rfl) split
  obtain ⟨rfl, ⟨due, phase⟩, step⟩ := dialEnded_of_events m.taken made.events
  have counts := failedDials_of_run new m.reached slot m.worker m.here
  have obeys := m.obeys new
  obtain rfl : earlier = m.fleet.log slot := made.earlier
  have events := made.events
  rw [step, List.nil_append] at events
  obtain ⟨-, rfl⟩ := List.cons.inj events
  obtain ⟨since, rfl⟩ := made.later
  refine ⟨since, ?_⟩
  simp [Worker.dialEnded, failDial, linkEvents, phase, Phase.link, counts, obeys, UInt64.ofNat_add]

/-! ## Dialing again -/

/-- What a worker that is to dial again at an instant has done since: nothing, while the instant is
to come; dialed then; or stopped before, because the fleet was told to. -/
inductive Redialed (start : Fleet) (acts : List Act) (f : Fleet) (slot : Nat) (due : Instant) :
    List (Instant × Event) → Prop
  | waiting (early : f.hub.now ≤ due) (before : f.canStep = false → f.hub.now < due) :
      Redialed start acts f slot due []
  | dialed (since : List (Instant × Event)) :
      Redialed start acts f slot due
        (since ++ [(due, .dialed), (due, .link .disconnected .dialing)])
  | stopped (since : List (Instant × Event)) {t : Instant} (early : t ≤ due)
      (told : Told start acts f slot t) :
      Redialed start acts f slot due (since ++ [(t, .stopped), (t, .link .disconnected .stopped)])

/-- While timers fire when they are due, a worker that is to dial again does so in time. -/
theorem redialed_of_split (new : start = (create policy network bus counting spare).spawn addrs)
    (ran : start.run? acts = some f) (punctual : ∀ t, .lag t ∉ acts) {t : Instant} {e : Event}
    (split : f.log slot = later ++ (t, e) :: earlier) (again : e.redialsAt? policy t = some due) :
    Redialed start acts f slot due later := by
  obtain ⟨m, pre, post, made⟩ := exists_moment ran (by rw [new]; rfl) split
  have obeys := m.obeys new
  obtain rfl : m.fleet.hub.now = t := made.now
  obtain ⟨rfl, redials⟩ := redials_of_events m.taken made.events (by rw [obeys]; exact again)
  have kept := kept_of_transition m.taken
  -- the log after the step of the moment is what is there before the worker dials again
  have base : (m.fleet.afterStep slot m.step).log slot = (m.fleet.hub.now, e) :: earlier := by
    rw [log_afterStep_self, made.earlier, made.events]
    simp [logged]
  have holds : Holds (fun _ now w log => ∃ since, log = since ++ (m.fleet.hub.now, e) :: earlier ∧
      Redials due now w since) slot (m.fleet.afterStep slot m.step) := by
    intro w here
    obtain rfl : m.step.worker = w := by
      simpa [workers_afterStep_self m.step m.here] using here
    refine ⟨[], base, ?_⟩
    show Redials due m.step.hub.now m.step.worker []
    rw [kept.now]
    exact redials
  obtain ⟨w, here⟩ := m.exists_worker
  have punctual' : ∀ t, .lag t ∉ m.after := fun t mem => punctual t (by simp [m.acts_eq, mem])
  obtain ⟨since, log, redials⟩ := holds.run_of_punctual
    (by
      rintro _ _ _ _ ⟨since, log, redials⟩ step
      exact ⟨_, by rw [log, ← List.append_assoc], redials.transition step⟩)
    (by
      rintro _ _ _ _ ⟨since, log, redials⟩ waits _ wakes
      exact ⟨since, log, redials.later waits wakes⟩)
    punctual' m.rest w here
  obtain rfl : later = since := List.append_cancel_right (split.symm.trans log)
  cases redials with
  | pausing phase early =>
    exact .waiting early fun none => ((waits_pausing phase).1 (waits_of_canStep none here)).2
  | ready phase now =>
    refine .waiting (Nat.le_of_eq now) fun none => ?_
    simpa [step?, phase] using waits_of_canStep none here
  | dialed since => exact .dialed since
  | @stopped since t early =>
    refine .stopped since early ?_
    have halted : f.log slot = (since ++ [(t, .stopped)]) ++ (t, .link .disconnected .stopped) ::
        (m.fleet.hub.now, e) :: earlier := by simp [split]
    rcases halted_of_split new ran halted with told | ⟨-, last⟩
    · exact told
    · obtain ⟨-, rfl⟩ := Prod.mk.inj (Option.some.inj last)
      simp [Event.redialsAt?] at again

/-! ## Never giving up -/

/-- A worker that has ended was told to stop, found nobody who receives, or broke down. -/
theorem halt_of_ended (new : start = (create policy network bus counting spare).spawn addrs)
    (ran : start.run? acts = some f) {w : Worker} (here : f.workers[slot]? = some w)
    (ended : w.ended = true) :
    (∃ later t source earlier, f.log slot = later ++ (t, .link source .stopped) :: earlier ∧
      (Told start acts f slot t ∨ Unheard start acts f slot t earlier)) ∨
    ∃ x ∈ f.log slot, x.2.breaks = true := by
  by_cases broken : w.phase.crash? = none
  · refine .inl (exists_halt_of_stopped new ran here ?_)
    cases phase : w.phase <;> simp_all [Worker.ended, Phase.crash?]
  · refine .inr ?_
    have holds : Holds (fun _ _ w log => w.phase.crash? ≠ none →
        ∃ x ∈ log, x.2.breaks = true) slot f := by
      subst new
      refine (holds_spawn (fun _ broken => absurd rfl broken) slot).run (fun _ step broken => ?_)
        (fun known _ => known) ran
      obtain ⟨e, mem, breaks⟩ := breaks_of_transition step broken
      exact ⟨_, List.mem_append_left _ (mem_logged.2 ⟨rfl, mem⟩), breaks⟩
    exact holds w here broken

theorem dials_logged (t : Instant) (es : List Event) (log : List (Instant × Event)) :
    dials (logged t es ++ log) = dials log + es.count .dialed := by
  rw [dials, List.countP_append, logged, List.countP_reverse, List.countP_map, Nat.add_comm,
    List.count]
  congr 1

/-- A worker that is not told to stop, and whose dials all fail. -/
structure Hapless (f : Fleet) (slot : Nat) (w : Worker) : Prop where
  here : f.workers[slot]? = some w
  going : f.hub.stopping = false
  refuses : f.hub.network.Refuses w.key.addr

namespace Hapless

variable {w : Worker} {s : Worker.Step} {t : Instant}

/-- When the clock has been moved on, the worker can take a step. -/
theorem exists_step (hapless : Hapless f slot w) (later : f.hub.now ≤ t)
    (step : w.step? { f.hub with now := t } = some s) (going : s.hub.stopping = false)
    (refuses : s.hub.network.Refuses s.worker.key.addr) :
    ∃ more g, .stop ∉ more ∧ f.run? more = some g ∧ Hapless g slot s.worker ∧
      dials (g.log slot) = dials (f.log slot) + s.events.count .dialed := by
  have moved : (f.moveTo t).workers[slot]? = some w := hapless.here
  have stepped : (f.moveTo t).stepWorker? slot = some ((f.moveTo t).afterStep slot s) := by
    rw [stepWorker?, moved]
    exact congrArg (Option.map _) step
  refine ⟨[.lag t, .step slot], (f.moveTo t).afterStep slot s, by simp,
    by simp [run?, act?, later, stepped], ⟨workers_afterStep_self s moved, going, refuses⟩, ?_⟩
  rw [log_afterStep_self]
  exact dials_logged t s.events (f.log slot)

/-- When its pause is over the worker is about to dial. -/
theorem exists_ready {due : Instant} (hapless : Hapless f slot w) (phase : w.phase = .pausing due) :
    ∃ more g w', .stop ∉ more ∧ f.run? more = some g ∧ Hapless g slot w' ∧ w'.phase = .ready ∧
      dials (g.log slot) = dials (f.log slot) := by
  have going : Hub.stopping { f.hub with now := max f.hub.now due } = false := hapless.going
  obtain ⟨more, g, still, ran, hapless', count⟩ := hapless.exists_step
    (s := ⟨{ f.hub with now := max f.hub.now due }, { w with phase := .ready }, []⟩)
    (Nat.le_max_left f.hub.now due) (by simp [step?, phase, going]) going hapless.refuses
  exact ⟨more, g, _, still, ran, hapless', rfl, count⟩

/-- A worker that is about to dial does so, and the dial will fail. -/
theorem exists_dialing (hapless : Hapless f slot w) (phase : w.phase = .ready) :
    ∃ more g w', .stop ∉ more ∧ f.run? more = some g ∧ Hapless g slot w' ∧
      (∃ due e, w'.phase = .dialing (some due) (.refused e)) ∧
      dials (g.log slot) = dials (f.log slot) + 1 := by
  obtain ⟨⟨delay, e, next⟩, rest⟩ := hapless.refuses.dial
  obtain ⟨more, g, still, ran, hapless', count⟩ := hapless.exists_step
    (s := ⟨{ f.hub with network := (f.hub.network.dial w.key.addr).2 },
      { w with phase := .dialing (some (f.hub.now + delay)) (.refused e) },
      [.link .disconnected .dialing, .dialed]⟩) (Nat.le_refl f.hub.now)
    (by simp [step?, begin, phase, hapless.going, next, linkEvents, Phase.link])
    hapless.going rest
  exact ⟨more, g, _, still, ran, hapless', ⟨_, _, rfl⟩, count⟩

/-- A worker whose dial fails pauses when it has failed. -/
theorem exists_pausing {due : Instant} {e : Failure} (hapless : Hapless f slot w)
    (phase : w.phase = .dialing (some due) (.refused e)) :
    ∃ more g w', .stop ∉ more ∧ f.run? more = some g ∧ Hapless g slot w' ∧
      (∃ due, w'.phase = .pausing due) ∧ dials (g.log slot) = dials (f.log slot) := by
  let h : Hub := { f.hub with now := max f.hub.now due }
  have going : h.stopping = false := hapless.going
  obtain ⟨metrics, counted⟩ := h.count_eq fun m => m.recordDialFailure w.key.addr
  obtain ⟨more, g, still, ran, hapless', count⟩ := hapless.exists_step
    (s := (failDial h w e).after (.dialEnded (.refused e))) (t := max f.hub.now due)
    (Nat.le_max_left f.hub.now due) (by
      have passed : due ≤ h.now := Nat.le_max_right ..
      simp only [step?, phase]
      rw [if_neg (by rw [going]; simp), if_pos passed]
      rfl)
    (by rw [hub_after, failDial, counted]; exact going)
    (by rw [hub_after, failDial, counted]; exact hapless.refuses)
  refine ⟨more, g, _, still, ran, hapless', ⟨_, rfl⟩, ?_⟩
  rw [count]
  simp [failDial, linkEvents, phase, Phase.link]

/-- A worker that is about to dial can dial as often as there is time for. -/
theorem exists_run_of_ready (hapless : Hapless f slot w) (phase : w.phase = .ready) (k : Nat) :
    ∃ more g, .stop ∉ more ∧ f.run? more = some g ∧
      dials (g.log slot) = dials (f.log slot) + k := by
  induction k generalizing f w with
  | zero => exact ⟨[], f, by simp, rfl, rfl⟩
  | succ k ih =>
    obtain ⟨xs, f₁, w₁, goes₁, ran₁, hapless₁, ⟨due, e, dialing⟩, count₁⟩ :=
      hapless.exists_dialing phase
    obtain ⟨ys, f₂, w₂, goes₂, ran₂, hapless₂, ⟨due, pausing⟩, count₂⟩ :=
      hapless₁.exists_pausing dialing
    obtain ⟨zs, f₃, w₃, goes₃, ran₃, hapless₃, ready, count₃⟩ := hapless₂.exists_ready pausing
    obtain ⟨more, g, goes, ran, count⟩ := ih hapless₃ ready
    refine ⟨xs ++ (ys ++ (zs ++ more)), g, by simp [goes₁, goes₂, goes₃, goes], ?_, ?_⟩
    · rw [run?_append, ran₁, Option.bind_some, run?_append, ran₂, Option.bind_some, run?_append,
        ran₃, Option.bind_some, ran]
    · omega

/-- So can a worker that pauses. -/
theorem exists_run (hapless : Hapless f slot w)
    (phase : w.phase = .ready ∨ ∃ due, w.phase = .pausing due) (k : Nat) :
    ∃ more g, .stop ∉ more ∧ f.run? more = some g ∧
      dials (g.log slot) = dials (f.log slot) + k := by
  rcases phase with ready | ⟨due, pausing⟩
  · exact hapless.exists_run_of_ready ready k
  · obtain ⟨xs, f', w', goes, ran, hapless', ready, count⟩ := hapless.exists_ready pausing
    obtain ⟨more, g, goes', ran', count'⟩ := hapless'.exists_run_of_ready ready k
    refine ⟨xs ++ more, g, by simp [goes, goes'], ?_, ?_⟩
    · rw [run?_append, ran, Option.bind_some, ran']
    · omega

end Hapless

/-- **Retries.**  In every run of a fleet: a worker reports each dial that fails, with a warning when
it is the first one since the start or the last connection, and with its number otherwise, which is
counted in 64 bits.  While timers fire when they are due, it dials again exactly when the pause is
over, which is the same for every failure, and at once when a connection has ended; unless the fleet
was told to stop before, or nobody receives.  A worker ends only for one of these reasons or by a
breakdown; and while all its dials fail, it can still dial as often as there is time for. -/
theorem retries_of_run (new : start = (create policy network bus counting spare).spawn addrs)
    (ran : start.run? acts = some f) (slot : Nat) :
    (∀ later earlier t e, f.log slot = later ++ (t, .dialEnded (.refused e)) :: earlier →
      let attempt := UInt64.ofNat (failuresInRow earlier + 1)
      ∃ since, later = since ++
          [(t, .dialFailed e attempt policy.reconnectDelay),
            (t, .link .dialing .disconnected)] ∧
        (∀ source, ∃ entry, Event.report? source
            (.dialFailed e attempt policy.reconnectDelay) = some entry ∧
          Announces attempt.toNat entry ∧
          (failuresInRow earlier + 1 < UInt64.size → Announces (failuresInRow earlier + 1) entry)) ∧
        ((∀ t, .lag t ∉ acts) →
          Redialed start acts f slot (t + policy.reconnectDelay) since)) ∧
    (∀ later earlier t reason, f.log slot = later ++ (t, .exited reason) :: earlier →
      reason ≠ .busClosed → (∀ t, .lag t ∉ acts) → Redialed start acts f slot t later) ∧
    ∀ w, f.workers[slot]? = some w →
      (w.ended = true →
        (∃ later t source earlier, f.log slot = later ++ (t, .link source .stopped) :: earlier ∧
          (Told start acts f slot t ∨ Unheard start acts f slot t earlier)) ∨
        ∃ x ∈ f.log slot, x.2.breaks = true) ∧
      ((w.phase = .ready ∨ ∃ due, w.phase = .pausing due) → f.hub.stopping = false →
        f.hub.network.Refuses w.key.addr →
        ∀ k, ∃ more g, .stop ∉ more ∧ f.run? more = some g ∧
          dials (g.log slot) = dials (f.log slot) + k) := by
  refine ⟨?_, ?_, ?_⟩
  · intro later earlier t e split attempt
    obtain ⟨since, rfl⟩ := told_of_refused new ran split
    have announced := announces_dialFailedReport e attempt policy.reconnectDelay
    refine ⟨since, rfl, ?_, ?_⟩
    · intro source
      refine ⟨_, rfl, announced, fun few => ?_⟩
      rwa [UInt64.toNat_ofNat_of_lt' few] at announced
    · intro punctual
      rw [List.append_cons, List.append_assoc, List.append_assoc] at split
      exact redialed_of_split new ran punctual split rfl
  · intro later earlier t reason split heard punctual
    exact redialed_of_split new ran punctual split (by simp [Event.redialsAt?, heard])
  · intro w here
    refine ⟨halt_of_ended new ran here, ?_⟩
    intro phase going refuses
    exact Hapless.exists_run ⟨here, going, refuses⟩ phase

/-- One worker whose first dial fails at once and whose second one takes a second to fail; the third
one succeeds, but the peer ends the stream at once. -/
def flaky : Fleet :=
  (create {}
    ⟨[("feed:1", [.refusedAtOnce, .settles (Duration.seconds 1) (.refused { kind := .timedOut }),
      .settles 0 (.connected [(0, .ends)] none), .hangs])]⟩ { capacity := 1 } true
    false).spawn ["feed:1"]

/-- The worker goes through all its dials, each pause as long as it lasts. -/
def flakyActs : List Act :=
  [.step 0, .step 0, .pass (Duration.seconds 5), .step 0, .step 0, .pass (Duration.seconds 6),
    .step 0, .pass (Duration.seconds 11), .step 0, .step 0, .step 0, .step 0, .step 0]

/-- The second failure is the second one in a row, and the dial after it begins five seconds later;
the one after the end of the connection begins at once. -/
theorem retries_of_run_flaky :
    ∃ f, flaky.run? flakyActs = some f ∧
      (∃ since, (f.log 0).take 15 = since ++
          [(Duration.seconds 6, .dialFailed { kind := .timedOut } 2 (Duration.seconds 5)),
            (Duration.seconds 6, .link .dialing .disconnected)] ∧
        Redialed flaky flakyActs f 0 (Duration.seconds 11) since) ∧
      Redialed flaky flakyActs f 0 (Duration.seconds 11)
        [(Duration.seconds 11, .dialed), (Duration.seconds 11, .link .disconnected .dialing)] := by
  have told : (flaky.run? flakyActs).map (fun f =>
      ((f.log 0).take 3, (f.log 0)[15]?, failuresInRow ((f.log 0).drop 16))) =
      some ([(Duration.seconds 11, .dialed), (Duration.seconds 11, .link .disconnected .dialing),
          (Duration.seconds 11, .exited .eof)],
        some (Duration.seconds 6, .dialEnded (.refused { kind := .timedOut })), 1) := by
    decide +kernel
  obtain ⟨f, ran, state⟩ := Option.map_eq_some_iff.1 told
  obtain ⟨first, rest⟩ := Prod.mk.inj state
  obtain ⟨here, failures⟩ := Prod.mk.inj rest
  have punctual : ∀ t, .lag t ∉ flakyActs := by simp [flakyActs]
  obtain ⟨refused, exited, -⟩ := retries_of_run rfl ran 0
  obtain ⟨since, later, -, redials⟩ := refused ((f.log 0).take 15) ((f.log 0).drop 16) _ _ (by
    obtain ⟨lt, same⟩ := List.getElem?_eq_some_iff.1 here
    rw [← same, ← List.drop_eq_getElem_cons lt, List.take_append_drop])
  rw [failures] at later
  refine ⟨f, ran, ⟨since, later, redials punctual⟩, ?_⟩
  have split := (List.take_append_drop 3 (f.log 0)).symm
  rw [first] at split
  exact exited [_, _] _ _ .eof split (by simp) punctual

end Fleet

end FeedCapture
