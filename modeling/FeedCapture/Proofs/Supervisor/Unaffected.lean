import FeedCapture.Proofs.Supervisor.Bystander

/-!
# Runs beside a source that cannot be reached

Every run of a supervisor in which the clock waits has its like without a source that cannot be
reached, and the other way round.  What the worker of the source does in between is seen by nobody:
it dials again when its pause is over, and goes on where the clock or a call of stop waits for it.

## Main definitions

* `Supervision.Leads` — a run leads from one state to another and shows so much to the others
* `Supervision.Unaffected` — what is the same for the others
* `Supervision.Alike` — runs that are the same for the others

The main statement is `Supervision.unaffected_of_run`.
-/

namespace FeedCapture.Supervision

open Supervisor

variable {key : SourceKey} {spared : Option Nat} {slot : Nat} {s t u s' t' : Supervision} {a : Act}
  {acts : List Act} {seen shown more : List (Instant × Mark)}

/-! ## What a run shows to the others -/

/-- A run in which the clock waits leads from one state to another, and this much is seen of it
without the steps of the worker in a slot and the ends of calls of stop. -/
def Leads (spared : Option Nat) (slot : Nat) (s : Supervision) (shown : List (Instant × Mark))
    (t : Supervision) : Prop :=
  ∃ acts seen, s.timely? spared acts = some (t, seen) ∧ apartFrom slot seen = shown

namespace Leads

theorem refl (spared : Option Nat) (slot : Nat) (s : Supervision) : s.Leads spared slot [] s :=
  ⟨[], [], rfl, rfl⟩

theorem trans (first : s.Leads spared slot shown t) (rest : t.Leads spared slot more u) :
    s.Leads spared slot (shown ++ more) u := by
  obtain ⟨xs, seen, ran, rfl⟩ := first
  obtain ⟨ys, later, ran', rfl⟩ := rest
  exact ⟨xs ++ ys, seen ++ later, timely?_append ran ran', List.filter_append ..⟩

/-- One act. -/
theorem act (acted : s.timelyAct? spared a = some t) :
    s.Leads spared slot (apartFrom slot (s.sights a)) t :=
  ⟨[a], _, timely?_singleton acted, rfl⟩

theorem regular (leads : s.Leads spared slot shown t) (regular : s.Regular) : t.Regular := by
  obtain ⟨acts, seen, ran, -⟩ := leads
  exact regular.run ran

end Leads

/-- Where all workers have ended, all calls of stop that have run before go on to their ends, of
which the others see nothing. -/
theorem exists_leads_polls (spared : Option Nat) (slot : Nat)
    (ended : ∀ slot, s.supervisor.hasEnded slot = true) :
    ∃ t, s.Leads spared slot [] t ∧ Later s t ∧ ∀ c ∈ t.calls, c = .fresh ∨ c = .finished := by
  obtain ⟨acts, t, seen, ran, later, returns, isOver⟩ := exists_timely?_polls spared ended
  refine ⟨t, ⟨acts, seen, ran, List.filter_eq_nil_iff.2 fun e he => ?_⟩, later, isOver⟩
  obtain ⟨n, end_⟩ := returns e he
  simp [end_, Mark.isApart]

theorem apartFrom_step (s : Supervision) (slot : Nat) :
    apartFrom slot (s.sights (.step slot)) = [] := by
  simp [apartFrom, sights, marks, Mark.isApart]

/-! ## Everybody waits -/

/-- Calls that have not run or are over do not keep the clock from moving on. -/
theorem rests_of_over (waits : ∀ w ∈ s.supervisor.fleet.workers, spared ≠ some w.key.slot →
      w.step? s.supervisor.fleet.hub = none)
    (isOver : ∀ c ∈ s.calls, c = .fresh ∨ c = .finished) : s.rests spared = true := by
  refine rests_iff.2 ⟨waits, fun c hc => ?_⟩
  rcases isOver c hc with rfl | rfl <;> rfl

theorem canPass_iff {time : Instant} : s.canPass spared time = true ↔
    s.supervisor.fleet.hub.now ≤ time ∧ s.rests spared = true ∧
      ∀ w ∈ s.supervisor.fleet.workers, spared ≠ some w.key.slot →
        ∀ wake, w.wakeAt = some wake → time ≤ wake := by
  simp only [canPass, Bool.and_eq_true, decide_eq_true_eq, List.all_eq_true, Bool.or_eq_true,
    Option.all_eq_true, and_assoc, ne_eq, ← or_iff_not_imp_left]

/-- When the clock can move on, it can stop on the way. -/
theorem Regular.canPass_between (regular : s.Regular) {time wake : Instant}
    (can : s.canPass spared time = true) (later : s.supervisor.fleet.hub.now ≤ wake)
    (early : wake < time) :
    s.canPass spared wake = true ∧ (s.moveTo wake).canPass spared time = true := by
  obtain ⟨-, rests, wakes⟩ := canPass_iff.1 can
  have still : (s.moveTo wake).rests spared = true := by
    refine rests_of_over (fun w hw needed => ?_) fun c hc => regular.over_of_rests rests hc
    exact Worker.step?_moveTo ((rests_iff.1 rests).1 w hw needed) fun wake' hwake =>
      Nat.lt_of_lt_of_le early (wakes w hw needed wake' hwake)
  exact ⟨canPass_iff.2 ⟨later, rests, fun w hw needed wake' hwake =>
      Nat.le_trans (Nat.le_of_lt early) (wakes w hw needed wake' hwake)⟩,
    canPass_iff.2 ⟨Nat.le_of_lt early, still, wakes⟩⟩

/-- When the workers wait, and all of them once they were told to stop, the calls of stop go on
until everybody waits. -/
theorem Regular.exists_rests (regular : s.Regular) (spared : Option Nat) (slot : Nat)
    (waits : ∀ w ∈ s.supervisor.fleet.workers, spared ≠ some w.key.slot →
      w.step? s.supervisor.fleet.hub = none)
    (stopping : s.supervisor.stopped = true → ∀ w ∈ s.supervisor.fleet.workers,
      w.step? s.supervisor.fleet.hub = none) :
    ∃ t, s.Leads spared slot [] t ∧ Later s t ∧ t.rests spared = true := by
  cases stopped : s.supervisor.stopped with
  | false =>
    exact ⟨s, .refl spared slot s, .refl s, rests_of_over waits (regular.tended.waiting stopped)⟩
  | true =>
    have ended : ∀ w ∈ s.supervisor.fleet.workers, w.ended = true := fun w hw => by
      obtain ⟨i, hi⟩ := List.getElem?_of_mem hw
      exact regular.ended_of_waits stopped hi (stopping stopped w hw)
    have all : ∀ slot, s.supervisor.hasEnded slot = true := fun slot => by
      unfold hasEnded
      split
      · next w hw => exact ended w (List.mem_of_getElem? hw)
      · rfl
    obtain ⟨t, leads, later, isOver⟩ := exists_leads_polls spared slot all
    obtain ⟨own, fleet⟩ := later.fleet
    refine ⟨t, leads, later, rests_of_over (fun w hw _ => ?_) isOver⟩
    rw [fleet] at hw
    exact Worker.step?_of_ended (ended w hw) _

theorem policy_timelyAct? (acted : s.timelyAct? spared a = some t) :
    t.supervisor.fleet.hub.policy = s.supervisor.fleet.hub.policy := by
  cases timely_of_timelyAct? acted with
  | pass can => rfl
  | act other acted => exact (frame_act? other acted).2

theorem policy_timely? (ran : s.timely? spared acts = some (t, seen)) :
    t.supervisor.fleet.hub.policy = s.supervisor.fleet.hub.policy := by
  induction acts generalizing s seen with
  | nil =>
    cases ran
    rfl
  | cons a acts ih =>
    obtain ⟨s', later, acted, rest, -⟩ := exists_of_timely?_cons ran
    exact (ih rest).trans (policy_timelyAct? acted)

namespace Beside

/-- When everybody waits in the one, everybody can come to wait in the other. -/
theorem exists_rests_right (beside : Beside key s t) (hs : s.Regular) (ht : t.Regular)
    (only : ∀ slot ∈ spared, slot = key.slot) (rests : s.rests spared = true) :
    ∃ t', t.Leads none key.slot [] t' ∧ Beside key s t' ∧ t'.rests none = true := by
  have waits : ∀ w ∈ t.supervisor.fleet.workers, w.step? t.supervisor.fleet.hub = none := by
    intro w hw
    obtain ⟨mem, other⟩ := beside.fleet.mem_of_mem hs.tended.wired hw
    exact (beside.fleet.waits_iff hw).2
      ((rests_iff.1 rests).1 w mem fun same => other (only _ same))
  obtain ⟨t', leads, later, rests⟩ :=
    ht.exists_rests none key.slot (fun w hw _ => waits w hw) fun _ => waits
  exact ⟨t', leads, beside.later (.refl s) later, rests⟩

/-- A step of the worker of the source is none of the others. -/
theorem stepOwn (beside : Beside key s t) (acted : s.act? (.step key.slot) = some s') :
    Beside key s' t := by
  obtain ⟨fleet, stepped, rfl⟩ := Option.map_eq_some_iff.1 acted
  exact ⟨beside.fleet.stepOwn stepped, beside.sources, beside.length, beside.new, beside.started,
    beside.stopped, beside.calls⟩

/-- The worker of the source goes on until it waits; nobody else notices. -/
theorem exists_waits (spared : Option Nat) (beside : Beside key s t)
    (brief : 0 < t.supervisor.fleet.hub.policy.reconnectDelay ∨
      t.supervisor.fleet.hub.stopping = true) :
    ∃ s', s.Leads spared key.slot [] s' ∧ Beside key s' t ∧
      s'.supervisor.fleet.stepWorker? key.slot = none := by
  -- every step leaves fewer to take before the worker waits
  induction steps : s.supervisor.fleet.urge key.slot using Nat.strong_induction_on
    generalizing s with
  | _ steps ih =>
    subst steps
    cases stepped : s.supervisor.fleet.stepWorker? key.slot with
    | none => exact ⟨s, .refl spared _ s, beside, stepped⟩
    | some fleet =>
      have acted : s.act? (.step key.slot) =
          some { s with supervisor := { s.supervisor with fleet } } :=
        congrArg (Option.map _) stepped
      obtain ⟨s', leads, beside', waits⟩ :=
        ih _ (beside.fleet.urge_stepOwn brief stepped) (beside.stepOwn acted) rfl
      have first : s.Leads spared key.slot _ _ := .act (timelyAct?_of_act? rfl acted)
      rw [apartFrom_step] at first
      exact ⟨s', first.trans leads, beside', waits⟩

/-- When everybody waits in the other, everybody can come to wait in the one. -/
theorem exists_rests_left (beside : Beside key s t) (hs : s.Regular) (ht : t.Regular)
    (brief : spared = some key.slot ∨ 0 < t.supervisor.fleet.hub.policy.reconnectDelay)
    (rests : t.rests none = true) :
    ∃ s', s.Leads spared key.slot [] s' ∧ Beside key s' t ∧ s'.rests spared = true := by
  have still := (rests_iff.1 rests).1
  -- the worker of the source need not wait if it is spared and has not been told to stop
  have ready : ∃ s', s.Leads spared key.slot [] s' ∧ Beside key s' t ∧
      ((spared ≠ some key.slot ∨ s'.supervisor.stopped = true) →
        s'.supervisor.fleet.stepWorker? key.slot = none) := by
    by_cases needed : spared ≠ some key.slot ∨ s.supervisor.stopped = true
    · obtain ⟨s', leads, beside', waits⟩ := beside.exists_waits spared (by
        rw [ht.told.stopping_eq, beside.stopped]
        rcases needed with needed | stopped
        · exact .inl (brief.resolve_left needed)
        · exact .inr stopped)
      exact ⟨s', leads, beside', fun _ => waits⟩
    · exact ⟨s, .refl .., beside, fun h => absurd h needed⟩
  obtain ⟨s', leads, beside', own⟩ := ready
  have waits : ∀ w ∈ s'.supervisor.fleet.workers,
      (spared ≠ some w.key.slot ∨ s'.supervisor.stopped = true) →
        w.step? s'.supervisor.fleet.hub = none := by
    intro w hw needed
    rcases beside'.fleet.mem_or_own hw with hw | hw
    · exact (beside'.fleet.waits_iff hw).1 (still w hw (by simp))
    · rw [(leads.regular hs).tended.wired.slots key.slot w hw] at needed
      have none := own needed
      simpa [Fleet.stepWorker?, hw] using none
  obtain ⟨s'', leads', later, rests⟩ := (leads.regular hs).exists_rests spared key.slot
    (fun w hw needed => waits w hw (.inl needed)) fun stopped w hw => waits w hw (.inr stopped)
  exact ⟨s'', leads.trans leads', beside'.later later (.refl t), rests⟩

/-! ## The clock moves on -/

theorem moveTo (beside : Beside key s t) (time : Instant) :
    Beside key (s.moveTo time) (t.moveTo time) :=
  beside.withFleet (beside.fleet.moveTo time)

/-- When the clock moves on in the one, it does so in the other. -/
theorem exists_moveTo_right (beside : Beside key s t) (hs : s.Regular) (ht : t.Regular)
    (only : ∀ slot ∈ spared, slot = key.slot) {time : Instant}
    (can : s.canPass spared time = true) :
    ∃ t', t.Leads none key.slot [] t' ∧ Beside key (s.moveTo time) t' := by
  obtain ⟨later, rests, wakes⟩ := canPass_iff.1 can
  obtain ⟨t', leads, beside', rests'⟩ := beside.exists_rests_right hs ht only rests
  have can' : t'.canPass none time = true := by
    refine canPass_iff.2 ⟨beside'.fleet.hub.common.now ▸ later, rests', fun w hw _ => ?_⟩
    obtain ⟨mem, other⟩ := beside'.fleet.mem_of_mem hs.tended.wired hw
    exact wakes w mem fun same => other (only _ same)
  exact ⟨_, leads.trans (.act (timelyAct?_of_canPass can')), beside'.moveTo time⟩

/-- The clock can move on in the one as far as in the other, if everybody waits and the worker of
the source goes on no earlier. -/
theorem canPass_left (beside : Beside key s t) (hs : s.Regular) (rests : s.rests spared = true)
    {time : Instant} (can : t.canPass none time = true)
    (own : ∀ w, s.supervisor.fleet.workers[key.slot]? = some w → spared ≠ some key.slot →
      ∀ wake, w.wakeAt = some wake → time ≤ wake) : s.canPass spared time = true := by
  obtain ⟨later, -, wakes⟩ := canPass_iff.1 can
  refine canPass_iff.2 ⟨beside.fleet.hub.common.now ▸ later, rests, fun w hw needed => ?_⟩
  rcases beside.fleet.mem_or_own hw with hw | hw
  · exact wakes w hw (by simp)
  · rw [hs.tended.wired.slots key.slot w hw] at needed
    exact own w hw needed

/-- When the clock moves on in the other, it does so in the one, with a stop at each instant at
which the worker of the source goes on by itself. -/
theorem exists_moveTo_left (beside : Beside key s t) (hs : s.Regular) (ht : t.Regular)
    (brief : spared = some key.slot ∨ 0 < t.supervisor.fleet.hub.policy.reconnectDelay)
    {time : Instant} (can : t.canPass none time = true) :
    ∃ s', s.Leads spared key.slot [] s' ∧ Beside key s' (t.moveTo time) := by
  -- every stop leaves less time to pass
  induction left : time - t.supervisor.fleet.hub.now using Nat.strong_induction_on
    generalizing s t with
  | _ left ih =>
    subst left
    obtain ⟨s', leads, beside', rests⟩ :=
      beside.exists_rests_left hs ht brief (canPass_iff.1 can).2.1
    have hs' := leads.regular hs
    by_cases soon : ∃ w, s'.supervisor.fleet.workers[key.slot]? = some w ∧
        spared ≠ some key.slot ∧ ∃ wake, w.wakeAt = some wake ∧ wake < time
    · obtain ⟨w, own, needed, wake, wakes, early⟩ := soon
      have waits : w.step? s'.supervisor.fleet.hub = none :=
        (rests_iff.1 rests).1 w (List.mem_of_getElem? own) (by
          rwa [hs'.tended.wired.slots key.slot w own])
      have after : t.supervisor.fleet.hub.now < wake := by
        rw [beside'.fleet.hub.common.now]
        exact Worker.lt_of_wakeAt waits wakes
      obtain ⟨can_right, can_moved⟩ := ht.canPass_between can (Nat.le_of_lt after) early
      have can_left : s'.canPass spared wake = true := by
        refine beside'.canPass_left hs' rests can_right fun v hv _ wake' hwake => ?_
        rw [own] at hv
        cases hv
        rw [wakes] at hwake
        cases hwake
        exact Nat.le_refl wake
      have passed : s'.timelyAct? spared (.pass wake) = some (s'.moveTo wake) :=
        timelyAct?_of_canPass can_left
      obtain ⟨u, leads', besides⟩ := ih (time - wake)
        (Nat.sub_lt_sub_left (Nat.lt_trans after early) after) (beside'.moveTo wake)
        (hs'.act passed) (ht.act (timelyAct?_of_canPass can_right)) brief can_moved rfl
      exact ⟨u, leads.trans ((Leads.act passed).trans leads'), besides⟩
    · have can' : s'.canPass spared time = true :=
        beside'.canPass_left hs' rests can fun w own needed wake wakes =>
          Nat.le_of_not_lt fun early => soon ⟨w, own, needed, wake, wakes, early⟩
      exact ⟨_, leads.trans (.act (timelyAct?_of_canPass can')), beside'.moveTo time⟩

/-! ## Runs -/

/-- Whatever happens beside the source happens without it. -/
theorem act_right (beside : Beside key s t) (hs : s.Regular) (ht : t.Regular)
    (only : ∀ slot ∈ spared, slot = key.slot) (acted : s.timelyAct? spared a = some s') :
    ∃ t', t.Leads none key.slot (apartFrom key.slot (s.sights a)) t' ∧ Beside key s' t' := by
  cases timely_of_timelyAct? acted with
  | pass can => exact beside.exists_moveTo_right hs ht only can
  | act other acted =>
    by_cases own : a = .step key.slot
    · subst own
      rw [apartFrom_step]
      exact ⟨t, .refl .., beside.stepOwn acted⟩
    · have rel := beside.rel_act? hs ht own other
      rw [acted] at rel
      generalize acted' : t.act? a = r at rel
      cases rel with
      | @some _ t' beside' =>
        rw [← beside.apartFrom_sights]
        exact ⟨t', .act (timelyAct?_of_act? other acted'), beside'⟩

/-- Whatever happens without the source happens beside it. -/
theorem act_left (beside : Beside key s t) (hs : s.Regular) (ht : t.Regular)
    (brief : spared = some key.slot ∨ 0 < t.supervisor.fleet.hub.policy.reconnectDelay)
    (acted : t.timelyAct? none a = some t') :
    ∃ s', s.Leads spared key.slot (apartFrom key.slot (t.sights a)) s' ∧ Beside key s' t' := by
  cases timely_of_timelyAct? acted with
  | pass can => exact beside.exists_moveTo_left hs ht brief can
  | act other acted =>
    have own : a ≠ .step key.slot := by
      rintro rfl
      obtain ⟨fleet, stepped, -⟩ := Option.map_eq_some_iff.1 acted
      obtain ⟨w, -, hw, -⟩ := Fleet.exists_of_stepWorker? stepped
      rw [beside.fleet.absent] at hw
      cases hw
    have rel := beside.rel_act? hs ht own other
    rw [acted] at rel
    generalize acted' : s.act? a = r at rel
    cases rel with
    | @some s' _ beside' =>
      rw [beside.apartFrom_sights]
      exact ⟨s', .act (timelyAct?_of_act? other acted'), beside'⟩

/-- Every run beside the source has its like without it. -/
theorem run_right (beside : Beside key s t) (hs : s.Regular) (ht : t.Regular)
    (only : ∀ slot ∈ spared, slot = key.slot) (ran : s.timely? spared acts = some (s', seen)) :
    ∃ t', t.Leads none key.slot (apartFrom key.slot seen) t' ∧ Beside key s' t' := by
  induction acts generalizing s t seen with
  | nil =>
    cases ran
    exact ⟨t, .refl .., beside⟩
  | cons a acts ih =>
    obtain ⟨s₁, later, acted, rest, rfl⟩ := exists_of_timely?_cons ran
    obtain ⟨t₁, first, beside⟩ := beside.act_right hs ht only acted
    obtain ⟨t', leads, beside⟩ := ih beside (hs.act acted) (first.regular ht) rest
    refine ⟨t', ?_, beside⟩
    rw [apartFrom, List.filter_append]
    exact first.trans leads

/-- Every run without the source has its like beside it. -/
theorem run_left (beside : Beside key s t) (hs : s.Regular) (ht : t.Regular)
    (brief : spared = some key.slot ∨ 0 < t.supervisor.fleet.hub.policy.reconnectDelay)
    (ran : t.timely? none acts = some (t', seen)) :
    ∃ s', s.Leads spared key.slot (apartFrom key.slot seen) s' ∧ Beside key s' t' := by
  induction acts generalizing s t seen with
  | nil =>
    cases ran
    exact ⟨s, .refl .., beside⟩
  | cons a acts ih =>
    obtain ⟨t₁, later, acted, rest, rfl⟩ := exists_of_timely?_cons ran
    obtain ⟨s₁, first, beside⟩ := beside.act_left hs ht brief acted
    rw [← policy_timelyAct? acted] at brief
    obtain ⟨s', leads, beside⟩ := ih beside (first.regular hs) (ht.act acted) brief rest
    refine ⟨s', ?_, beside⟩
    rw [apartFrom, List.filter_append]
    exact first.trans leads

end Beside

/-! ## What is the same for the others -/

/-- With a source or without it, all that concerns the others is the same: the time, the bus with
its messages, their order and those who wait for a place, what the other workers are, did and
counted, the live connections, and whether the supervisor was started or stopped.  Only the bus's
own sender may have been given up in one of them and not yet in the other. -/
structure Unaffected (key : SourceKey) (s t : Supervision) : Prop where
  now : t.supervisor.fleet.hub.now = s.supervisor.fleet.hub.now
  bus : t.supervisor.fleet.hub.bus =
    s.supervisor.fleet.hub.bus.withSender t.supervisor.fleet.hub.bus.ownSender
  history : t.supervisor.fleet.history =
    s.supervisor.fleet.history.filter fun e => e.2.1 ≠ key.slot
  workers : ∀ slot, t.supervisor.fleet.workers[slot]? =
    if slot = key.slot then none else s.supervisor.fleet.workers[slot]?
  counters : ∀ addr, addr ≠ key.addr → t.supervisor.fleet.hub.metrics.ofSource addr =
    s.supervisor.fleet.hub.metrics.ofSource addr
  gauge : t.supervisor.fleet.hub.metrics.activeConnections =
    s.supervisor.fleet.hub.metrics.activeConnections
  registry : t.supervisor.fleet.hub.registry = s.supervisor.fleet.hub.registry
  started : t.supervisor.started = s.supervisor.started
  stopped : t.supervisor.stopped = s.supervisor.stopped

/-- Two runs, with a source and without it, that are the same for the others: what is there in the
end, and what is seen and when.  If everybody waits in the end, calls of stop that were not given up
return at the same instants. -/
structure Alike (key : SourceKey) (spared : Option Nat) (s t : Supervision)
    (seen seen' : List (Instant × Mark)) : Prop where
  state : Unaffected key s t
  shown : apartFrom key.slot seen' = apartFrom key.slot seen
  returned : s.rests spared = true → t.rests none = true → ∀ call,
    (∀ at_, (at_, .did (.giveUp call)) ∉ seen) →
      ∀ at_, (at_, .returned call) ∈ seen' ↔ (at_, .returned call) ∈ seen

theorem Beside.unaffected (beside : Beside key s t) : Unaffected key s t := by
  have common := beside.fleet.hub.common
  refine ⟨common.now, common.bus, ?_, fun slot => ?_, common.metrics.others, common.metrics.gauge,
    common.registry, beside.started, beside.stopped⟩
  · rw [Fleet.history, Fleet.history, beside.fleet.past, List.filter_reverse]
  · split
    · next own =>
      rw [own]
      exact beside.fleet.absent
    · next other => exact beside.fleet.others slot other

/-- A new supervisor with the source and one without it. -/
theorem beside_create {sources : List String} {policy : Policy} {network : Network}
    {counting : Bool} {source : String} {larger smaller : Supervisor}
    (with_ : create (sources ++ [source]) policy network counting = .ok larger)
    (without : create sources policy network counting = .ok smaller) (new : source ∉ sources)
    (unreachable : Worker.Unreachable network source) :
    Beside ⟨sources.length, source⟩ { supervisor := larger } { supervisor := smaller } := by
  obtain ⟨-, -, rfl⟩ := create_eq_ok with_
  obtain ⟨-, -, rfl⟩ := create_eq_ok without
  exact ⟨⟨.refl _ _, unreachable, rfl, fun _ _ => rfl, rfl, fun w none => (by cases none),
    fun w none => (by cases none)⟩, rfl, rfl, new, rfl, rfl, rfl⟩

/-- Runs of new supervisors that are the same for the others are alike. -/
theorem alike_of_apartFrom {larger smaller : Supervisor} (hs : Regular { supervisor := larger })
    (ht : Regular { supervisor := smaller }) {acts' : List Act} {seen' : List (Instant × Mark)}
    (ran : timely? spared { supervisor := larger } acts = some (s, seen))
    (ran' : timely? none { supervisor := smaller } acts' = some (t, seen'))
    (state : Unaffected key s t) (shown : apartFrom key.slot seen' = apartFrom key.slot seen) :
    Alike key spared s t seen seen' := by
  refine ⟨state, shown, fun rests rests' call kept at_ => ?_⟩
  have noted : Noted s seen := (noted_new larger).run hs ran
  have noted' : Noted t seen' := (noted_new smaller).run ht ran'
  have same : ∀ at_ m, m.isApart key.slot = true → ((at_, m) ∈ seen' ↔ (at_, m) ∈ seen) := by
    intro at_ m apart
    have both : (at_, m) ∈ apartFrom key.slot seen' ↔ (at_, m) ∈ apartFrom key.slot seen := by
      rw [shown]
    simpa [apartFrom, List.mem_filter, apart] using both
  have kept' : ∀ at_, (at_, .did (.giveUp call)) ∉ seen' := fun at_ given =>
    kept at_ ((same at_ (.did (.giveUp call)) rfl).1 given)
  calc (at_, .returned call) ∈ seen'
      ↔ (at_, .began call) ∈ seen' := noted'.returned_iff (ht.run ran') rests' kept' at_
    _ ↔ (at_, .began call) ∈ seen := same at_ (.began call) rfl
    _ ↔ (at_, .returned call) ∈ seen := (noted.returned_iff (hs.run ran) rests kept at_).symm

/-- A further source at an address of its own, no dial of which leads to a connection, changes
nothing for the others, whatever the capacity of the bus and whoever receives when: every run of the
larger supervisor in which the clock waits is like one of the smaller one, and the other way round.
The clock need not wait for the worker of the source; but without a pause between its dials it has
to be allowed to move on in spite of it. -/
theorem unaffected_of_run {sources : List String} {policy : Policy} {network : Network}
    {counting : Bool} {source : String} {larger smaller : Supervisor} {spared : Option Nat}
    (with_ : create (sources ++ [source]) policy network counting = .ok larger)
    (without : create sources policy network counting = .ok smaller) (new : source ∉ sources)
    (unreachable : Worker.Unreachable network source)
    (only : ∀ slot ∈ spared, slot = sources.length) :
    (∀ acts s seen, timely? spared { supervisor := larger } acts = some (s, seen) →
      ∃ acts' t seen', timely? none { supervisor := smaller } acts' = some (t, seen') ∧
        Alike ⟨sources.length, source⟩ spared s t seen seen' ∧
        (s.rests spared = true → t.rests none = true)) ∧
    (spared = some sources.length ∨ 0 < policy.reconnectDelay →
      ∀ acts t seen, timely? none { supervisor := smaller } acts = some (t, seen) →
        ∃ acts' s seen', timely? spared { supervisor := larger } acts' = some (s, seen') ∧
          Alike ⟨sources.length, source⟩ spared s t seen' seen ∧
          (t.rests none = true → s.rests spared = true)) := by
  have beside := beside_create with_ without new unreachable
  have hs := regular_create with_
  have ht := regular_create without
  constructor
  · intro acts s seen ran
    obtain ⟨t, leads, besides⟩ := beside.run_right hs ht only ran
    have settled : ∃ t', t.Leads none sources.length [] t' ∧
        Beside ⟨sources.length, source⟩ s t' ∧ (s.rests spared = true → t'.rests none = true) := by
      by_cases rests : s.rests spared = true
      · obtain ⟨t', more, besides', rests'⟩ :=
          besides.exists_rests_right (hs.run ran) (leads.regular ht) only rests
        exact ⟨t', more, besides', fun _ => rests'⟩
      · exact ⟨t, .refl .., besides, fun h => absurd h rests⟩
    obtain ⟨t', more, besides', rests⟩ := settled
    obtain ⟨acts', seen', ran', shown⟩ := leads.trans more
    rw [List.append_nil] at shown
    exact ⟨acts', t', seen', ran', alike_of_apartFrom hs ht ran ran' besides'.unaffected shown,
      rests⟩
  · intro brief acts t seen ran
    have brief' : spared = some sources.length ∨ 0 < smaller.fleet.hub.policy.reconnectDelay := by
      obtain ⟨-, -, rfl⟩ := create_eq_ok without
      exact brief
    obtain ⟨s, leads, besides⟩ := beside.run_left hs ht brief' ran
    have settled : ∃ s', s.Leads spared sources.length [] s' ∧
        Beside ⟨sources.length, source⟩ s' t ∧ (t.rests none = true → s'.rests spared = true) := by
      by_cases rests : t.rests none = true
      · have brief' : spared = some sources.length ∨
            0 < t.supervisor.fleet.hub.policy.reconnectDelay := by
          rwa [policy_timely? ran]
        obtain ⟨s', more, besides', rests'⟩ :=
          besides.exists_rests_left (leads.regular hs) (ht.run ran) brief' rests
        exact ⟨s', more, besides', fun _ => rests'⟩
      · exact ⟨s, .refl .., besides, fun h => absurd h rests⟩
    obtain ⟨s', more, besides', rests⟩ := settled
    obtain ⟨acts', seen', ran', shown⟩ := leads.trans more
    rw [List.append_nil] at shown
    exact ⟨acts', s', seen', ran', alike_of_apartFrom hs ht ran' ran besides'.unaffected shown.symm,
      rests⟩

/-- A bus for one message; the one source is reached at once and sends two, and the other one
refuses the first dial and lets the second one hang. -/
def cramped (sources : List String) : Supervisor where
  sources := sources
  fleet := Fleet.create { busCapacity := 1 }
    ⟨[("feed:1", [.settles 0 (.connected [(0, .sends [1]), (0, .sends [2])] none)]),
      ("feed:2", [.settles 0 (.refused ⟨.connectionRefused, none⟩), .hangs])]⟩
    { capacity := 1 } true false

/-- The worker of the one source waits for room until that of the other one dials again; then a
message is received and the capture is stopped. -/
def crampedActs : List Act :=
  [.start, .step 0, .step 0, .step 0, .step 0, .step 1, .step 1, .pass (Duration.seconds 5),
    .step 1, .step 1, .receive, .step 0, .call, .poll 0, .step 1, .step 0, .step 0, .poll 0]

/-- Without that source everything else happens at the same instants, and the call of stop returns
at the same one; and what happens without the source can happen beside it. -/
theorem unaffected_of_run_cramped :
    (∃ s seen acts' t seen',
      timely? none { supervisor := cramped ["feed:1", "feed:2"] } crampedActs = some (s, seen) ∧
      timely? none { supervisor := cramped ["feed:1"] } acts' = some (t, seen') ∧
      Alike ⟨1, "feed:2"⟩ none s t seen seen' ∧
      (Duration.seconds 5, .returned 0) ∈ seen') ∧
    ∃ t seen acts' s seen',
      timely? none { supervisor := cramped ["feed:1"] } (crampedActs.filter (· ≠ .step 1)) =
        some (t, seen) ∧
      timely? none { supervisor := cramped ["feed:1", "feed:2"] } acts' = some (s, seen') ∧
      Alike ⟨1, "feed:2"⟩ none s t seen' seen ∧ s.rests none = true := by
  have outcome : (timely? none { supervisor := cramped ["feed:1", "feed:2"] } crampedActs).map
      (fun r => (r.1.rests none, r.2.contains (Duration.seconds 5, .returned 0),
        r.2.any fun e => e.2 = .did (.giveUp 0))) = some (true, true, false) := by
    decide +kernel
  have outcome' : (timely? none { supervisor := cramped ["feed:1"] }
      (crampedActs.filter (· ≠ .step 1))).map (fun r => r.1.rests none) = some true := by
    decide +kernel
  obtain ⟨⟨s, seen⟩, ran, facts⟩ := Option.map_eq_some_iff.1 outcome
  simp only [Prod.mk.injEq, List.contains_iff_mem, List.any_eq_false] at facts
  obtain ⟨rests, returned, kept⟩ := facts
  obtain ⟨⟨t, seen'⟩, ran', rests'⟩ := Option.map_eq_some_iff.1 outcome'
  have with_ : create (["feed:1"] ++ ["feed:2"]) { busCapacity := 1 }
      (cramped []).fleet.hub.network true = .ok (cramped ["feed:1", "feed:2"]) := rfl
  have without : create ["feed:1"] { busCapacity := 1 } (cramped []).fleet.hub.network true =
      .ok (cramped ["feed:1"]) := rfl
  have unreachable : Worker.Unreachable (cramped []).fleet.hub.network "feed:2" := by
    intro delay peer tuning planned
    have plan : (cramped []).fleet.hub.network.plan "feed:2" =
        [.settles 0 (.refused ⟨.connectionRefused, none⟩), .hangs] := rfl
    simp [plan] at planned
  have only : ∀ slot ∈ (none : Option Nat), slot = ["feed:1"].length := by simp
  obtain ⟨right, left⟩ := unaffected_of_run with_ without (by decide) unreachable only
  constructor
  · obtain ⟨acts', t, seen', ran', alike, still⟩ := right crampedActs s seen ran
    refine ⟨s, seen, acts', t, seen', ran, ran', alike, ?_⟩
    refine (alike.returned rests (still rests) 0 (fun at_ given => ?_) _).2 returned
    simpa using kept _ given
  · obtain ⟨acts', s, seen, ran, alike, still⟩ := left (.inr (by decide)) _ t seen' ran'
    exact ⟨t, seen', acts', s, seen, ran', ran, alike, still rests'⟩

end FeedCapture.Supervision
