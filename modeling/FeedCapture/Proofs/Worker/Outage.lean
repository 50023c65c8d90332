import FeedCapture.Proofs.Fleet.Logs
import FeedCapture.Proofs.Fleet.Stopping
import FeedCapture.Proofs.Worker.Outline

/-!
# Outages, told from the log

What a worker has noted about outages agrees with its log: whether it ever had a connection, and
when the last one ended.  An outage begins when the reading ends, and the dials that fail after that
do not move its start.

## Main definitions

* `Worker.LostAt` — when the last connection of a worker ended, by its log
* `Worker.Classified` — what a reconnect is, by the log before it
* `Worker.Tracked` — the notes of a worker agree with its log

The main statements are `Tracked.transition` and `Tracked.classified`.
-/

namespace FeedCapture

/-- An outage that has begun does not begin again. -/
theorem OutageTracker.markDown_of_down {t : OutageTracker}
    (down : t.everConnected = true → t.downSince ≠ none) (now : Instant) :
    (t.markDown now).1 = t := by
  unfold markDown
  split
  · next first =>
    simp only [Bool.and_eq_true, Option.isNone_iff_eq_none] at first
    exact absurd first.2 (down first.1)
  · rfl

namespace Worker

open Transport

/-- A dial led to a connection. -/
def Event.reaches : Event → Bool
  | .dialEnded (.connected _ _) => true
  | _ => false

/-- A connection begins or ends. -/
def Event.turns : Event → Bool
  | .dialEnded (.connected _ _) => true
  | .exited _ => true
  | _ => false

/-- When the last connection ended, unless there has been another one since. -/
def lostAt? : List (Instant × Event) → Option Instant
  | [] => none
  | (t, .exited _) :: _ => some t
  | (_, .dialEnded (.connected _ _)) :: _ => none
  | _ :: log => lostAt? log

/-- The last connection ended at an instant, and there has been no other one since. -/
def LostAt (e : Instant) (log : List (Instant × Event)) : Prop :=
  ∃ reason since before, log = since ++ (e, .exited reason) :: before ∧
    ∀ x ∈ since, x.2.turns = false

/-- What a dial that succeeds at an instant is called, by what the worker did before. -/
inductive Classified (thresholds : Outage.Thresholds) (t : Instant)
    (earlier : List (Instant × Event)) : Reconnect → Prop
  | first (new : ∀ x ∈ earlier, x.2.reaches = false) : Classified thresholds t earlier .first
  | reestablished {e : Instant} (again : ∃ x ∈ earlier, x.2.reaches = true)
      (lost : LostAt e earlier) (before : e ≤ t) (long : thresholds.reestablishedAfter ≤ t - e) :
      Classified thresholds t earlier (.reestablished (t - e))
  | hiccup {e : Instant} (again : ∃ x ∈ earlier, x.2.reaches = true)
      (lost : LostAt e earlier) (before : e ≤ t) (short : t - e < thresholds.reestablishedAfter)
      (long : thresholds.hiccupMin ≤ t - e) :
      Classified thresholds t earlier (.hiccup (t - e))
  | quick {e : Instant} (again : ∃ x ∈ earlier, x.2.reaches = true)
      (lost : LostAt e earlier) (before : e ≤ t) (short : t - e < thresholds.reestablishedAfter)
      (brief : t - e < thresholds.hiccupMin) :
      Classified thresholds t earlier (.quick (t - e))

variable {t now : Instant} {e : Event} {es : List Event} {log : List (Instant × Event)}
  {h : Hub} {w w' : Worker} {s : Step}

/-! ## What the log tells -/

theorem turns_of_quiet (quiet : e.quiet = true) : e.turns = false := by
  cases e with
  | dialEnded outcome => cases outcome <;> first | rfl | cases quiet
  | exited reason => cases quiet
  | _ => rfl

theorem reaches_of_turns (still : e.turns = false) : e.reaches = false := by
  cases e with
  | dialEnded outcome => cases outcome <;> first | rfl | cases still
  | _ => rfl

theorem lostAt?_cons (still : e.turns = false) : lostAt? ((t, e) :: log) = lostAt? log := by
  cases e with
  | dialEnded outcome => cases outcome <;> first | rfl | cases still
  | exited reason => cases still
  | _ => rfl

/-- While no connection begins or ends, the log tells the same about the last one. -/
theorem lostAt?_append {since : List (Instant × Event)} (still : ∀ x ∈ since, x.2.turns = false) :
    lostAt? (since ++ log) = lostAt? log := by
  induction since with
  | nil => rfl
  | cons x since ih =>
    obtain ⟨first, rest⟩ := List.forall_mem_cons.1 still
    exact (lostAt?_cons first).trans (ih rest)

theorem lostAt?_logged (still : ∀ e ∈ es, e.turns = false) :
    lostAt? (logged t es ++ log) = lostAt? log :=
  lostAt?_append fun x mem => still x.2 (mem_logged.1 mem).2

theorem lostAt_of_lostAt? {e : Instant} (lost : lostAt? log = some e) : LostAt e log := by
  induction log with
  | nil => cases lost
  | cons entry log ih =>
    obtain ⟨t, event⟩ := entry
    by_cases still : event.turns = false
    · rw [lostAt?_cons still] at lost
      obtain ⟨reason, since, before, rfl, none⟩ := ih lost
      exact ⟨reason, (t, event) :: since, before, rfl, List.forall_mem_cons.2 ⟨still, none⟩⟩
    · cases event with
      | exited reason =>
        obtain rfl : t = e := Option.some.inj lost
        exact ⟨reason, [], log, rfl, List.forall_mem_nil _⟩
      | dialEnded outcome =>
        cases outcome with
        | connected peer tuning => cases lost
        | _ => exact absurd rfl still
      | _ => exact absurd rfl still

theorem turns_of_passing (passing : e.passing = true) : e.turns = false := by
  cases e <;> first | rfl | cases passing

/-- Leaving a connection says nothing else about connections. -/
theorem exists_events_leave (h : Hub) (w : Worker) (reason : ReadExit) :
    ∃ pre post, (leave h w reason).events = pre ++ .exited reason :: post ∧
      (∀ e ∈ pre, e.turns = false) ∧ ∀ e ∈ post, e.turns = false := by
  refine ⟨_, _, (events_leave h w reason).trans (List.append_assoc ..), ?_, ?_⟩
  · intro e mem
    rcases List.mem_append.1 mem with mem | mem
    · exact turns_of_quiet (quiet_notices _ e mem)
    · exact turns_of_quiet (quiet_linkEvents _ _ e mem)
  · split
    · simp [Event.turns]
    · exact List.forall_mem_nil _

/-! ## The notes of a worker -/

/-- What a worker has noted about outages agrees with its log. -/
structure Tracked (now : Instant) (w : Worker) (log : List (Instant × Event)) : Prop where
  ever : w.outage.everConnected = log.any fun x => x.2.reaches
  since : w.outage.downSince = lostAt? log
  met : w.outage.downSince ≠ none → w.outage.everConnected = true
  /-- With a connection there is no outage. -/
  up : w.isConnected = true → w.outage = ⟨true, none⟩
  /-- Without a connection there is one, if there ever was a connection. -/
  down : w.isConnected = false → w.phase.crash? = none → w.outage.everConnected = true →
    w.outage.downSince ≠ none
  past : ∀ x ∈ log, x.1 ≤ now

/-- A new worker has noted nothing. -/
theorem tracked_new (key : SourceKey) : Tracked now { key } [] where
  ever := rfl
  since := rfl
  met noted := absurd rfl noted
  up connected := by simp [isConnected, Phase.link] at connected
  down _ _ ever := by cases ever
  past := List.forall_mem_nil _

namespace Tracked

theorem later (tracked : Tracked now w log) (le : now ≤ t) : Tracked t w log :=
  { tracked with past := fun x mem => Nat.le_trans (tracked.past x mem) le }

theorem past_logged (tracked : Tracked now w log) (es : List Event) :
    ∀ x ∈ logged now es ++ log, x.1 ≤ now := by
  intro x mem
  rcases List.mem_append.1 mem with mem | mem
  · exact Nat.le_of_eq (mem_logged.1 mem).1
  · exact tracked.past x mem

theorem any_logged (still : ∀ e ∈ es, e.reaches = false) :
    ((logged t es ++ log).any fun x => x.2.reaches) = log.any fun x => x.2.reaches := by
  have none : ((logged t es).any fun x => x.2.reaches) = false :=
    List.any_eq_false.2 fun x mem => by simp [still x.2 (mem_logged.1 mem).2]
  rw [List.any_append, none, Bool.false_or]

/-- A step that neither begins nor ends a connection leaves the notes as they are; after a
breakdown there is nobody left who has a connection. -/
theorem stays (tracked : Tracked now w log) (alive : w.phase.crash? = none)
    (still : ∀ e ∈ es, e.turns = false) (outage : w'.outage = w.outage)
    (link : w'.isConnected = w.isConnected ∨
      w'.isConnected = false ∧ w'.phase.crash? ≠ none) :
    Tracked now w' (logged now es ++ log) where
  ever := by rw [any_logged fun e mem => reaches_of_turns (still e mem), outage, tracked.ever]
  since := by rw [lostAt?_logged still, outage, tracked.since]
  met := by rw [outage]; exact tracked.met
  up connected := by
    rcases link with same | ⟨shut, -⟩
    · rw [outage, tracked.up (same ▸ connected)]
    · rw [shut] at connected
      cases connected
  down shut whole ever := by
    rcases link with same | ⟨-, broken⟩
    · rw [outage] at ever ⊢
      exact tracked.down (same ▸ shut) alive ever
    · exact absurd whole broken
  past := tracked.past_logged es

/-- A connection that ends begins an outage. -/
theorem loses (tracked : Tracked h.now w log) (connected : w.isConnected = true) (bus : Bus Nat)
    (reason : ReadExit) (first : List Event) (still : ∀ e ∈ first, e.turns = false) :
    Tracked h.now (leave { h with bus } w reason).worker
      (logged h.now (first ++ (leave { h with bus } w reason).events) ++ log) := by
  obtain ⟨pre, post, events, early, late⟩ := exists_events_leave { h with bus } w reason
  have outage : (leave { h with bus } w reason).worker.outage = ⟨true, some h.now⟩ := by
    rw [outage_leave, tracked.up connected]
    rfl
  have ever := tracked.ever
  rw [tracked.up connected] at ever
  refine ⟨?_, ?_, fun _ => by rw [outage], ?_, ?_, tracked.past_logged _⟩
  · rw [outage, any_logged, ← ever]
    intro e mem
    simp only [events, List.mem_append, List.mem_cons] at mem
    rcases mem with mem | mem | rfl | mem
    · exact reaches_of_turns (still e mem)
    · exact reaches_of_turns (early e mem)
    · rfl
    · exact reaches_of_turns (late e mem)
  · rw [outage, events, ← List.append_assoc, logged_append, logged_cons, List.append_assoc,
      List.append_assoc, lostAt?_logged late]
    rfl
  · rw [isConnected_leave]
    exact fun no => by cases no
  · intro _ _ _ none
    rw [outage] at none
    cases none

/-- A dial that succeeds ends the outage. -/
theorem gains (tracked : Tracked h.now w log) (peer : List (Duration × Peer))
    (tuning : Option Tuning) :
    Tracked h.now (connect h w peer tuning).worker
      (logged h.now (.dialEnded (.connected peer tuning) :: (connect h w peer tuning).events) ++
        log) := by
  have still : ∀ e ∈ (connect h w peer tuning).events, e.turns = false := fun e mem =>
    turns_of_quiet (quiet_connect h w peer tuning e mem)
  have outage : (connect h w peer tuning).worker.outage = ⟨true, none⟩ := by
    have up := w.outage.everConnected_markUp h.now h.policy.outage
    have since := w.outage.downSince_markUp h.now h.policy.outage
    show (w.outage.markUp h.now h.policy.outage).1 = _
    generalize (w.outage.markUp h.now h.policy.outage).1 = after at up since
    cases after
    simp_all
  refine ⟨?_, ?_, fun _ => by rw [outage], fun _ => outage, ?_, tracked.past_logged _⟩
  · rw [outage, logged_cons, List.append_assoc,
      any_logged fun e mem => reaches_of_turns (still e mem)]
    rfl
  · rw [outage, logged_cons, List.append_assoc, lostAt?_logged still]
    rfl
  · intro shut
    simp [isConnected, phase_connect, Phase.link] at shut

/-- A step keeps the notes in agreement with the log. -/
theorem transition (tracked : Tracked h.now w log) (step : Transition h w s) :
    Tracked h.now s.worker (logged h.now s.events ++ log) := by
  cases outline_of_transition step with
  | stops link stopping =>
    have shut : w.isConnected = false := by rcases link with link | link <;> simp [isConnected, link]
    refine tracked.stays (crash?_of_link (by rcases link with link | link <;> simp [link]))
      (fun e mem => turns_of_quiet (quiet_stop h w e mem)) rfl (.inl ?_)
    rw [shut]
    rfl
  | dials phase going =>
    refine tracked.stays (by rw [phase]; rfl)
      (fun e mem => turns_of_quiet (quiet_begin h w e mem)) ?_ (.inl ?_)
    · simp [begin, going]
    · simp only [begin, going, isConnected, phase, Phase.link]
      cases (h.network.dial w.key.addr).1 <;> rfl
  | @refused due e phase going passed =>
    have shut : w.isConnected = false := by simp [isConnected, phase, Phase.link]
    have alive : w.phase.crash? = none := by rw [phase]; rfl
    refine tracked.stays alive ?_ ?_ (.inl ?_)
    · exact List.forall_mem_cons.2
        ⟨rfl, fun e mem => turns_of_quiet (quiet_failDial h w _ e mem)⟩
    · exact OutageTracker.markDown_of_down (tracked.down shut alive) h.now
    · rw [shut]
      rfl
  | connects phase going passed => exact tracked.gains _ _
  | retries phase going passed =>
    exact tracked.stays (by rw [phase]; rfl) (List.forall_mem_nil _) rfl
      (.inl (by simp [isConnected, phase, Phase.link]))
  | @dialBreaks due reason phase going passed =>
    refine tracked.stays (by rw [phase]; rfl) ?_ rfl (.inr ⟨rfl, by simp [crash, Phase.crash?]⟩)
    exact List.forall_mem_cons.2 ⟨rfl, fun e mem => turns_of_quiet (quiet_crash h w _ e mem)⟩
  | @readBreaks reason link =>
    refine tracked.stays (crash?_of_link (by simp [link])) ?_ rfl
      (.inr ⟨rfl, by simp [crash, Phase.crash?]⟩)
    exact List.forall_mem_cons.2 ⟨rfl, fun e mem => turns_of_quiet (quiet_crash h w _ e mem)⟩
  | leaves bus reason first link passing unheard =>
    exact tracked.loses (by simp [isConnected, link]) bus reason first
      fun e mem => turns_of_passing (passing e mem)
  | goesOn link still passing =>
    exact tracked.stays (crash?_of_link (by simp [link]))
      (fun e mem => turns_of_passing (passing e mem)) rfl (.inl (by simp [isConnected, link, still]))

/-- A dial that succeeds is called what the log says, whatever failed before it. -/
theorem classified (tracked : Tracked now w log) (shut : w.isConnected = false)
    (alive : w.phase.crash? = none) (thresholds : Outage.Thresholds) :
    Classified thresholds now log (w.outage.markUp now thresholds).2 := by
  by_cases again : w.outage.everConnected = true
  · obtain ⟨e, since⟩ := Option.ne_none_iff_exists'.1 (tracked.down shut alive again)
    have called : (w.outage.markUp now thresholds).2 = thresholds.classify (now - e) := by
      simp [OutageTracker.markUp, OutageTracker.elapsed, again, since]
    have known : ∃ x ∈ log, x.2.reaches = true := by
      simpa [List.any_eq_true, again] using tracked.ever.symm
    have lost : LostAt e log := lostAt_of_lostAt? (tracked.since.symm.trans since)
    have before : e ≤ now := by
      obtain ⟨reason, between, earlier, rfl, -⟩ := lost
      exact tracked.past (e, .exited reason) (by simp)
    rw [called, Outage.Thresholds.classify]
    split
    · next long => exact .reestablished known lost before long
    · next short =>
      split
      · next long => exact .hiccup known lost before (Nat.lt_of_not_le short) long
      · next brief =>
        exact .quick known lost before (Nat.lt_of_not_le short) (Nat.lt_of_not_le brief)
  · have called : (w.outage.markUp now thresholds).2 = .first := by
      simp [OutageTracker.markUp, again]
    rw [called]
    refine .first fun x mem => ?_
    have none : (log.any fun x => x.2.reaches) = false := by
      rw [← tracked.ever]
      exact Bool.eq_false_iff.2 again
    simpa using List.any_eq_false.1 none x mem

end Tracked

end Worker

end FeedCapture
