import FeedCapture.Proofs.Worker.Carrying

/-!
# Connections that are silent

A worker gives a connection up at a read deadline when nothing came for longer than the idle
timeout.  Deadlines run from the last read or, where its message had to wait for room on the bus,
from the delivery, and one that passes too early is followed by another one.  So a connection is
given up only after a silence without any act of the peer, and no later than one read deadline after
the idle timeout, or after the time that the last message had to wait if this is longer.

## Main definitions

* `Watch` — when something was read last from a connection, when the reading went on, and its end
* `Watch.patience` — the longest silence that the worker bears
* `Watch.Stale` — the silence after which a connection may be given up
* `Worker.Watches` — the connections of a worker, by what it is doing

The main statement says that a step keeps the silences within these bounds (`Watches.transition`).
-/

namespace FeedCapture

open Transport

/-! ## What the log tells about silence -/

/-- A connection of a worker: when something was read from it last, and what came then. -/
structure Watch where
  opened : Instant
  peer : List (Duration × Peer)
  /-- When something was read last, or the connection opened. -/
  heard : Instant
  /-- When the worker went on reading after that. -/
  resumed : Instant
  /-- When and why the worker stopped reading. -/
  ending : Option (Instant × ReadExit) := none
deriving DecidableEq, Repr

namespace Watch

/-- The acts of the peer. -/
def acts (p : Watch) : List (Instant × Peer) := Connection.schedule p.opened p.peer

/-- How long the last message had to wait for room on the bus. -/
def parked (p : Watch) : Duration := p.resumed - p.heard

/-- The longest silence that the worker bears. -/
def patience (policy : Policy) (p : Watch) : Duration :=
  max policy.idleTimeout p.parked + policy.readDeadline

/-- Takes in what the worker does, until it stops reading. -/
def note (t : Instant) (p : Watch) (e : Worker.Event) : Watch :=
  match p.ending, e with
  | none, .read (.data _) => { p with heard := t, resumed := t }
  | none, .delivered _ => { p with resumed := t }
  | none, .exited reason => { p with ending := some (t, reason) }
  | _, _ => p

/-- Takes in what the worker does, where the latest connection stands first. -/
def record (t : Instant) (e : Worker.Event) (ps : List Watch) : List Watch :=
  match e with
  | .dialEnded (.connected peer _) => { opened := t, peer, heard := t, resumed := t } :: ps
  | e => ps.modifyHead fun p => p.note t e

/-- Takes in several things that a worker does at an instant, one after the other. -/
def recordAll (t : Instant) (es : List Worker.Event) (ps : List Watch) : List Watch :=
  es.foldl (fun ps e => record t e ps) ps

/-- The connections in what a worker did; both have the latest first. -/
def ofLog (log : List (Instant × Worker.Event)) : List Watch :=
  log.foldr (fun e ps => record e.1 e.2 ps) []

@[simp] theorem recordAll_nil (t : Instant) (ps : List Watch) : recordAll t [] ps = ps := rfl

@[simp] theorem recordAll_cons (t : Instant) (e : Worker.Event) (es : List Worker.Event)
    (ps : List Watch) : recordAll t (e :: es) ps = recordAll t es (record t e ps) := rfl

theorem recordAll_append (t : Instant) (xs ys : List Worker.Event) (ps : List Watch) :
    recordAll t (xs ++ ys) ps = recordAll t ys (recordAll t xs ps) := List.foldl_append ..

/-- The log after a step is that before it, with what the step did. -/
theorem ofLog_append (t : Instant) (es : List Worker.Event)
    (log : List (Instant × Worker.Event)) :
    ofLog ((es.map fun e => (t, e)).reverse ++ log) = recordAll t es (ofLog log) := by
  simp [ofLog, recordAll, List.foldl_map]

theorem note_of_quiet {e : Worker.Event} (h : e.quiet = true) (t : Instant) (p : Watch) :
    p.note t e = p := by
  obtain ⟨opened, peer, heard, resumed, _ | ending⟩ := p <;> cases e with
  | read result => cases result <;> first | rfl | cases h
  | _ => first | rfl | cases h

theorem record_of_quiet {e : Worker.Event} (h : e.quiet = true) (t : Instant)
    (ps : List Watch) : record t e ps = ps := by
  have same : (ps.modifyHead fun p => p.note t e) = ps := by
    cases ps <;> simp [note_of_quiet h]
  cases e with
  | dialEnded outcome => cases outcome <;> first | exact same | cases h
  | _ => exact same

theorem recordAll_of_quiet {es : List Worker.Event} (h : ∀ e ∈ es, e.quiet = true) (t : Instant)
    (ps : List Watch) : recordAll t es ps = ps := by
  induction es with
  | nil => rfl
  | cons e es ih =>
    rw [recordAll_cons, record_of_quiet (h e (by simp)), ih fun e he => h e (by simp [he])]

/-- The end of a delivery that came to nothing is no sign of the peer. -/
theorem record_undelivered (t : Instant) (m : Message) (outcome : Delivery) (ps : List Watch) :
    record t (.undelivered m outcome) ps = ps := by
  have same : ∀ p : Watch, p.note t (.undelivered m outcome) = p := by
    rintro ⟨opened, peer, heard, resumed, _ | ending⟩ <;> rfl
  cases ps <;> simp [record, same]

/-- Leaving a connection notes why, and nothing else. -/
theorem recordAll_leave (h : Hub) (w : Worker) (reason : ReadExit) (t : Instant)
    (ps : List Watch) :
    recordAll t (Worker.leave h w reason).events ps =
      ps.modifyHead fun p => p.note t (.exited reason) := by
  have early := Worker.quiet_notices (h.registry.unregister w.key).2
  have change := Worker.quiet_linkEvents w.phase.link .disconnected
  simp only [Worker.leave]
  split
  · simp only [recordAll_append, recordAll_of_quiet early, recordAll_of_quiet change,
      recordAll_of_quiet (Worker.quiet_stop _ _)]
    rfl
  · simp only [recordAll_append, recordAll_of_quiet early, recordAll_of_quiet change]
    rfl

/-- A connection that is over stays as it is. -/
theorem exists_recordAll_append {p : Watch} (ended : p.ending ≠ none) (t : Instant)
    (es : List Worker.Event) (later rest : List Watch) :
    ∃ later', recordAll t es (later ++ p :: rest) = later' ++ p :: rest := by
  have same : ∀ e, p.note t e = p := by
    obtain ⟨opened, peer, heard, resumed, _ | ending⟩ := p
    · exact absurd rfl ended
    · exact fun e => rfl
  have one : ∀ e later, ∃ later', record t e (later ++ p :: rest) = later' ++ p :: rest := by
    intro e later
    have noted : ∃ later', (later ++ p :: rest).modifyHead (fun q => q.note t e) =
        later' ++ p :: rest := by
      cases later with
      | nil => exact ⟨[], by simp [same]⟩
      | cons q later => exact ⟨q.note t e :: later, rfl⟩
    cases e with
    | dialEnded outcome =>
      cases outcome with
      | connected peer tuning => exact ⟨_ :: later, rfl⟩
      | _ => exact noted
    | _ => exact noted
  induction es generalizing later with
  | nil => exact ⟨later, rfl⟩
  | cons e es ih =>
    obtain ⟨later', recorded⟩ := one e later
    rw [recordAll_cons, recorded]
    exact ih later'

theorem mem_recordAll_of_ended {p : Watch} {ps : List Watch} (hp : p ∈ ps)
    (ended : p.ending ≠ none) (t : Instant) (es : List Worker.Event) : p ∈ recordAll t es ps := by
  obtain ⟨later, rest, rfl⟩ := List.append_of_mem hp
  obtain ⟨later', recorded⟩ := exists_recordAll_append ended t es later rest
  simp [recorded]

end Watch

/-! ## What is still to come from a peer -/

namespace Connection

variable {c c' : Connection} {now : Instant} {room : Nat}

theorem le_of_mem_schedule {start : Instant} {peer : List (Duration × Peer)}
    {a : Instant × Peer} (ha : a ∈ schedule start peer) : start ≤ a.1 := by
  induction peer generalizing start with
  | nil => cases ha
  | cons act rest ih =>
    rcases List.mem_cons.1 ha with rfl | ha
    · exact Nat.le_add_right _ _
    · exact Nat.le_trans (Nat.le_add_right _ _) (ih ha)

/-- A peer acts in order. -/
theorem sorted_schedule (start : Instant) (peer : List (Duration × Peer)) :
    (schedule start peer).Pairwise fun a b => a.1 ≤ b.1 := by
  induction peer generalizing start with
  | nil => exact .nil
  | cons act rest ih => exact .cons (fun b hb => le_of_mem_schedule hb) (ih _)

/-- A read that gets data gets it from an act that is due; what is left is due then too. -/
theorem incoming_of_read?_data {data : Bytes} (read : c.read? now room = some (.data data, c')) :
    ∃ due act rest, c.incoming = (due, act) :: rest ∧ due ≤ now ∧
      (c'.incoming = rest ∨ ∃ left, c'.incoming = (due, left) :: rest) := by
  obtain ⟨_ | ⟨⟨due, act⟩, rest⟩⟩ := c
  · cases read
  · refine ⟨due, act, rest, rfl, ?_⟩
    by_cases early : now < due
    · simp [read?, early] at read
    · refine ⟨Nat.le_of_not_lt early, ?_⟩
      cases act with
      | sends sent =>
        simp only [read?, early, if_false] at read
        split at read
        · cases read
        · split at read
          · cases read
            exact .inl rfl
          · cases read
            exact .inr ⟨_, rfl⟩
      | _ => simp [read?, early] at read

/-- Where nothing can be read, every act is still to come. -/
theorem lt_of_read?_eq_none (sorted : c.incoming.Pairwise fun a b => a.1 ≤ b.1)
    (read : c.read? now room = none) {due : Instant} {act : Peer} (ha : (due, act) ∈ c.incoming) :
    now < due := by
  rw [read?_eq_none_iff] at read
  obtain ⟨_ | ⟨first, rest⟩⟩ := c
  · cases ha
  · have next : now < first.1 := read _ rfl
    rcases List.mem_cons.1 ha with rfl | ha
    · exact next
    · have later : first.1 ≤ due := List.rel_of_pairwise_cons sorted ha
      exact Nat.lt_of_lt_of_le next later

/-- If a peer never pauses for longer than a time, and does nothing in a span that is longer, then
its last act is before that span. -/
theorem le_of_mem_schedule_of_gap {start heard until_ : Instant} {pause : Duration}
    {peer : List (Duration × Peer)} (begun : start ≤ heard) (lively : ∀ d ∈ peer, d.1 ≤ pause)
    (long : heard + pause < until_)
    (still : ∀ a ∈ schedule start peer, a.1 ≤ heard ∨ until_ < a.1) :
    ∀ a ∈ schedule start peer, a.1 ≤ heard := by
  induction peer generalizing start with
  | nil => exact List.forall_mem_nil _
  | cons act rest ih =>
    obtain ⟨after, act⟩ := act
    obtain ⟨now, later⟩ := List.forall_mem_cons.1 still
    obtain ⟨short, lively⟩ := List.forall_mem_cons.1 lively
    have early : start + after ≤ heard := by
      rcases now with now | now
      · exact now
      · have reached : until_ < heard + pause :=
          Nat.lt_of_lt_of_le now (Nat.add_le_add begun short)
        exact absurd reached (Nat.lt_asymm long)
    exact List.forall_mem_cons.2 ⟨early, ih early lively later⟩

end Connection

/-! ## Silences within their bounds -/

namespace Watch

/-- The connection may be given up at an instant because of a silence of some length. -/
structure Stale (policy : Policy) (p : Watch) (t : Instant) (silent : Duration) : Prop where
  /-- The silence began with the last read, or with the connection. -/
  since : t = p.heard + silent
  long : policy.idleTimeout < silent
  /-- No act of the peer was due since then, up to and including the end. -/
  still : ∀ a ∈ p.acts, a.1 ≤ p.heard ∨ t < a.1
  bounded : silent ≤ p.patience policy
  /-- A peer that never paused for longer than the idle timeout has long done all that it does. -/
  lively : (∀ d ∈ p.peer, d.1 ≤ policy.idleTimeout) → ∀ a ∈ p.acts, a.1 + policy.idleTimeout < t

/-- The connection was not given up because of silence, or it was stale then. -/
def Fair (policy : Policy) (p : Watch) : Prop :=
  ∀ t silent, p.ending = some (t, .idle silent) → p.Stale policy t silent

/-- The connection that a worker reads from. -/
structure Current (now : Instant) (link : Worker.Link) (p : Watch) : Prop where
  going : p.ending = none
  last : link.lastMessage = p.heard
  opened : p.opened ≤ p.heard
  heard : p.heard ≤ p.resumed
  resumed : p.resumed ≤ now
  /-- What was not due at the last read is still to come. -/
  left : ∀ a ∈ p.acts, a.1 ≤ p.heard ∨ ∃ act, (a.1, act) ∈ link.connection.incoming
  sorted : link.connection.incoming.Pairwise fun a b => a.1 ≤ b.1

variable {policy : Policy} {now : Instant} {link : Worker.Link} {p : Watch}

theorem fair_of_going (going : p.ending = none) : p.Fair policy := by
  intro t silent ending
  cases going.symm.trans ending

theorem Current.note_exited (h : p.Current now link) (t : Instant) (reason : ReadExit) :
    p.note t (.exited reason) = { p with ending := some (t, reason) } := by
  simp [note, h.going]

/-- The connection is left for another reason. -/
theorem Current.fair_exited (h : p.Current now link) (t : Instant) {reason : ReadExit}
    (other : ∀ silent, reason ≠ .idle silent) : (p.note t (.exited reason)).Fair policy := by
  rw [h.note_exited]
  intro t' silent ending
  cases ending
  exact absurd rfl (other silent)

theorem Current.later (h : p.Current now link) {t : Instant} (ht : now ≤ t) :
    p.Current t link := { h with resumed := Nat.le_trans h.resumed ht }

/-- A new connection. -/
theorem current_new (peer : List (Duration × Peer)) (close : Token) (now : Instant) :
    Current now ⟨Connection.opened now peer, close, now⟩
      { opened := now, peer, heard := now, resumed := now } where
  going := rfl
  last := rfl
  opened := Nat.le_refl _
  heard := Nat.le_refl _
  resumed := Nat.le_refl _
  left a ha := .inr ⟨a.2, ha⟩
  sorted := Connection.sorted_schedule now peer

/-- A read makes a new start. -/
theorem Current.read {h : Hub} {c : Connection} {data : Bytes} {room : Nat}
    (current : p.Current h.now link)
    (read : link.connection.read? h.now room = some (.data data, c)) :
    (p.note h.now (.read (.data data))).Current h.now (link.readNow h c) := by
  obtain ⟨due, act, rest, all, passed, rest_or⟩ := Connection.incoming_of_read?_data read
  have noted : p.note h.now (.read (.data data)) =
      { p with heard := h.now, resumed := h.now } := by
    simp [note, current.going]
  have sorted := current.sorted
  rw [all, List.pairwise_cons] at sorted
  rw [noted]
  refine ⟨current.going, rfl, ?_, Nat.le_refl _, Nat.le_refl _, ?_, ?_⟩
  · exact Nat.le_trans current.opened (Nat.le_trans current.heard current.resumed)
  · intro a ha
    rcases current.left a ha with before | ⟨b, hb⟩
    · exact .inl (Nat.le_trans before (Nat.le_trans current.heard current.resumed))
    · rw [all] at hb
      rcases List.mem_cons.1 hb with first | hb
      · exact .inl (by rw [(Prod.mk.inj first).1]; exact passed)
      · refine .inr ⟨b, ?_⟩
        rcases rest_or with taken | ⟨left, taken⟩
        · simpa [Worker.Link.readNow, taken] using hb
        · simpa [Worker.Link.readNow, taken] using .inr hb
  · rcases rest_or with taken | ⟨left, taken⟩
    · simpa [Worker.Link.readNow, taken] using sorted.2
    · simp only [Worker.Link.readNow, taken]
      exact List.pairwise_cons.2 ⟨sorted.1, sorted.2⟩

/-- After its message is on the bus the worker goes on reading. -/
theorem Current.deliver (current : p.Current now link) (m : Message) :
    (p.note now (.delivered m)).Current now link := by
  have noted : p.note now (.delivered m) = { p with resumed := now } := by
    simp [note, current.going]
  rw [noted]
  exact { current with
    heard := Nat.le_trans current.heard current.resumed
    resumed := Nat.le_refl _ }

/-- A connection that is given up at a read deadline is stale. -/
theorem Current.fair_idle (current : p.Current now link) {room : Nat} {deadline : Instant}
    (punctual : now ≤ deadline) (patient : deadline ≤ p.heard + p.patience policy)
    (read : link.connection.read? now room = none)
    (stale : policy.idleTimeout < now - link.lastMessage) :
    (p.note now (.exited (.idle (now - link.lastMessage)))).Fair policy := by
  rw [current.note_exited, current.last]
  rw [current.last] at stale
  intro t silent ending
  cases ending
  have begun : p.heard ≤ now := Nat.le_trans current.heard current.resumed
  have elapsed : p.heard + policy.idleTimeout < now := Nat.add_lt_of_lt_sub' stale
  have still : ∀ a ∈ p.acts, a.1 ≤ p.heard ∨ now < a.1 := by
    intro a ha
    rcases current.left a ha with before | ⟨b, hb⟩
    · exact .inl before
    · exact .inr (Connection.lt_of_read?_eq_none current.sorted read hb)
  refine ⟨(Nat.add_sub_cancel' begun).symm, stale, still, ?_, ?_⟩
  · exact Nat.sub_le_iff_le_add'.2 (Nat.le_trans punctual patient)
  · intro lively a ha
    have before := Connection.le_of_mem_schedule_of_gap current.opened lively elapsed still a ha
    exact Nat.lt_of_le_of_lt (Nat.add_le_add_right before _) elapsed

/-- A deadline that starts when the reading goes on, or while the silence is short, lies within the
patience of the worker. -/
theorem Current.patient (current : p.Current now link)
    (short : p.resumed = now ∨ now - p.heard ≤ policy.idleTimeout) :
    now + policy.readDeadline ≤ p.heard + p.patience policy := by
  have early : now ≤ p.heard + max policy.idleTimeout p.parked := by
    refine Nat.sub_le_iff_le_add'.1 ?_
    rcases short with rfl | short
    · exact Nat.le_max_right _ _
    · exact Nat.le_trans short (Nat.le_max_left _ _)
  rw [patience, ← Nat.add_assoc]
  exact Nat.add_le_add_right early _

theorem Current.resumed_deliver (current : p.Current now link) (m : Message) :
    (p.note now (.delivered m)).resumed = now := by
  simp [note, current.going]

end Watch

namespace Worker

/-- The connections of a worker, the latest first, by what it is doing. -/
inductive Watches (policy : Policy) (now : Instant) : Phase → List Watch → Prop
  | nothing {phase : Phase} {ps : List Watch} (shut : phase.open? = none)
      (past : ∀ p ∈ ps, p.Fair policy) : Watches policy now phase ps
  | reading {link : Link} {deadline : Instant} {p : Watch} {ps : List Watch}
      (current : p.Current now link) (punctual : now ≤ deadline)
      (patient : deadline ≤ p.heard + p.patience policy) (past : ∀ p ∈ ps, p.Fair policy) :
      Watches policy now (.reading link deadline) (p :: ps)
  | delivering {link : Link} {m : Message} {p : Watch} {ps : List Watch}
      (current : p.Current now link) (past : ∀ p ∈ ps, p.Fair policy) :
      Watches policy now (.delivering link m) (p :: ps)

namespace Watches

variable {policy : Policy} {now : Instant} {phase : Phase} {ps : List Watch} {link : Link}

theorem fair (h : Watches policy now phase ps) : ∀ p ∈ ps, p.Fair policy := by
  cases h with
  | nothing shut past => exact past
  | reading current punctual patient past =>
    exact List.forall_mem_cons.2 ⟨Watch.fair_of_going current.going, past⟩
  | delivering current past =>
    exact List.forall_mem_cons.2 ⟨Watch.fair_of_going current.going, past⟩

theorem of_reading {deadline : Instant} (h : Watches policy now (.reading link deadline) ps) :
    ∃ p rest, ps = p :: rest ∧ p.Current now link ∧ now ≤ deadline ∧
      deadline ≤ p.heard + p.patience policy ∧ ∀ q ∈ rest, q.Fair policy := by
  cases h with
  | nothing shut _ => cases shut
  | reading current punctual patient past => exact ⟨_, _, rfl, current, punctual, patient, past⟩

theorem of_delivering {m : Message} (h : Watches policy now (.delivering link m) ps) :
    ∃ p rest, ps = p :: rest ∧ p.Current now link ∧ ∀ q ∈ rest, q.Fair policy := by
  cases h with
  | nothing shut _ => cases shut
  | delivering current past => exact ⟨_, _, rfl, current, past⟩

/-- Time may pass up to the deadline of the worker. -/
theorem later (h : Watches policy now phase ps) {t : Instant} (ht : now ≤ t)
    (early : ∀ link deadline, phase = .reading link deadline → t ≤ deadline) :
    Watches policy t phase ps := by
  cases h with
  | nothing shut past => exact .nothing shut past
  | reading current punctual patient past =>
    exact .reading (current.later ht) (early _ _ rfl) patient past
  | delivering current past => exact .delivering (current.later ht) past

/-- A connection that is left for another reason than silence. -/
theorem left {h : Hub} {w : Worker} {p : Watch} {rest : List Watch} {hub : Hub}
    (current : p.Current h.now link) (past : ∀ q ∈ rest, q.Fair policy) {reason : ReadExit}
    (other : ∀ silent, reason ≠ .idle silent) :
    Watches policy now (leave hub w reason).worker.phase
      (Watch.recordAll h.now (leave hub w reason).events (p :: rest)) := by
  rw [Watch.recordAll_leave]
  exact .nothing (open?_leave ..)
    (List.forall_mem_cons.2 ⟨current.fair_exited h.now other, past⟩)

/-- Leaving a connection tells its reason only. -/
theorem eq_of_exited_mem_leave {h : Hub} {w : Worker} {reason reason' : ReadExit}
    (mem : .exited reason' ∈ (leave h w reason).events) : reason' = reason := by
  have loud : ∀ es : List Event, (∀ e ∈ es, e.quiet = true) → .exited reason' ∉ es :=
    fun es quiet mem => by cases quiet _ mem
  simp only [leave] at mem
  split at mem <;> simp only [List.mem_append, List.mem_singleton] at mem
  · rcases mem with ((mem | mem) | mem) | mem
    · exact absurd mem (loud _ (quiet_notices _))
    · exact absurd mem (loud _ (quiet_linkEvents _ _))
    · exact Event.exited.inj mem
    · exact absurd mem (loud _ (quiet_stop _ _))
  · rcases mem with (mem | mem) | mem
    · exact absurd mem (loud _ (quiet_notices _))
    · exact absurd mem (loud _ (quiet_linkEvents _ _))
    · exact Event.exited.inj mem

/-- The reason for which a connection is left is noted. -/
theorem ends_left {h hub : Hub} {w : Worker} {p : Watch} {rest : List Watch}
    (current : p.Current h.now link) {reason reason' : ReadExit}
    (mem : .exited reason' ∈ (leave hub w reason).events) :
    ∃ q ∈ Watch.recordAll h.now (leave hub w reason).events (p :: rest),
      q.ending = some (h.now, reason') := by
  rw [Watch.recordAll_leave, eq_of_exited_mem_leave mem, List.modifyHead_cons,
    current.note_exited]
  exact ⟨_, List.mem_cons_self, rfl⟩

/-- Whenever a worker tells why it stops reading, this is noted. -/
theorem ends_of_transition {h : Hub} {w : Worker} {s : Step}
    (watches : Watches policy h.now w.phase ps) (step : Transition h w s) {reason : ReadExit}
    (mem : .exited reason ∈ s.events) :
    ∃ p ∈ Watch.recordAll h.now s.events ps, p.ending = some (h.now, reason) := by
  have loud : (∀ e ∈ s.events, e.quiet = true) → ∃ p ∈ Watch.recordAll h.now s.events ps,
      p.ending = some (h.now, reason) := fun quiet => by cases quiet _ mem
  cases step with
  | halt idle stopping => exact loud (quiet_stop h w)
  | dial phase going => exact loud (quiet_begin h w)
  | refused phase going passed =>
    exact loud (List.forall_mem_cons.2 ⟨rfl, quiet_failDial h w _⟩)
  | dialBroke phase going passed => exact loud (List.forall_mem_cons.2 ⟨rfl, quiet_crash h w _⟩)
  | @connected due peer tuning phase going passed =>
    have mem : .exited reason ∈ (connect h w peer tuning).events := by simpa using mem
    cases quiet_connect h w peer tuning _ mem
  | retry phase going passed => cases mem
  | closed phase close =>
    rw [phase] at watches
    obtain ⟨p, rest, rfl, current, -⟩ := watches.of_reading
    exact ends_left current mem
  | eof phase going read =>
    rw [phase] at watches
    obtain ⟨p, rest, rfl, current, -⟩ := watches.of_reading
    rw [Step.after, Watch.recordAll_cons, Watch.record_of_quiet rfl]
    exact ends_left current (by simpa using mem)
  | failed phase going read =>
    rw [phase] at watches
    obtain ⟨p, rest, rfl, current, -⟩ := watches.of_reading
    rw [Step.after, Watch.recordAll_cons, Watch.record_of_quiet rfl]
    exact ends_left current (by simpa using mem)
  | readBroke phase going read => exact loud (List.forall_mem_cons.2 ⟨rfl, quiet_crash h w _⟩)
  | queued phase going read offer => simp [delivered] at mem
  | parked phase going read offer => simp at mem
  | @unwanted link deadline c data bus phase going read offer =>
    rw [phase] at watches
    obtain ⟨p, rest, rfl, current, -⟩ := watches.of_reading
    simp only [Step.after, Watch.recordAll_cons, Watch.record_undelivered]
    exact ends_left (current.read read) (by simpa using mem)
  | idle phase going read passed stale =>
    rw [phase] at watches
    obtain ⟨p, rest, rfl, current, -⟩ := watches.of_reading
    exact ends_left current mem
  | silent phase going read passed fresh => simp at mem
  | givenUp phase close =>
    rw [phase] at watches
    obtain ⟨p, rest, rfl, current, -⟩ := watches.of_delivering
    rw [Step.after, Watch.recordAll_cons, Watch.record_undelivered]
    exact ends_left current (by simpa using mem)
  | abandoned phase going claim =>
    rw [phase] at watches
    obtain ⟨p, rest, rfl, current, -⟩ := watches.of_delivering
    rw [Step.after, Watch.recordAll_cons, Watch.record_undelivered]
    exact ends_left current (by simpa using mem)
  | handedOver phase going claim => simp [delivered] at mem

/-- A step keeps the silences within their bounds. -/
theorem transition {h : Hub} {w : Worker} {s : Step}
    (watches : Watches h.policy h.now w.phase ps) (step : Transition h w s) :
    Watches h.policy h.now s.worker.phase (Watch.recordAll h.now s.events ps) := by
  cases step with
  | halt idle stopping =>
    rw [Watch.recordAll_of_quiet (quiet_stop h w)]
    exact .nothing rfl watches.fair
  | dial phase going =>
    rw [Watch.recordAll_of_quiet (quiet_begin h w)]
    exact .nothing (open?_begin h w) watches.fair
  | refused phase going passed =>
    rw [Step.after, Watch.recordAll_cons, Watch.record_of_quiet rfl,
      Watch.recordAll_of_quiet (quiet_failDial h w _)]
    exact .nothing rfl watches.fair
  | dialBroke phase going passed =>
    rw [Step.after, Watch.recordAll_cons, Watch.record_of_quiet rfl,
      Watch.recordAll_of_quiet (quiet_crash h w _)]
    exact .nothing rfl watches.fair
  | connected phase going passed =>
    rw [Step.after, Watch.recordAll_cons, Watch.recordAll_of_quiet (quiet_connect h w _ _)]
    simp only [phase_connect]
    have current := Watch.current_new ‹_› (h.tokens.child h.stop).2 h.now
    exact .reading current (Nat.le_add_right _ _) (current.patient (.inl rfl)) watches.fair
  | retry phase going passed => exact .nothing rfl watches.fair
  | closed phase close =>
    rw [phase] at watches
    obtain ⟨p, rest, rfl, current, -, -, past⟩ := watches.of_reading
    exact left current past (by simp)
  | eof phase going read =>
    rw [phase] at watches
    obtain ⟨p, rest, rfl, current, -, -, past⟩ := watches.of_reading
    rw [Step.after, Watch.recordAll_cons, Watch.record_of_quiet rfl]
    exact left current past (by simp)
  | failed phase going read =>
    rw [phase] at watches
    obtain ⟨p, rest, rfl, current, -, -, past⟩ := watches.of_reading
    rw [Step.after, Watch.recordAll_cons, Watch.record_of_quiet rfl]
    exact left current past (by simp)
  | readBroke phase going read =>
    rw [Step.after, Watch.recordAll_cons, Watch.record_of_quiet rfl,
      Watch.recordAll_of_quiet (quiet_crash h w _)]
    exact .nothing rfl watches.fair
  | @queued link deadline c data bus phase going read offer =>
    rw [phase] at watches
    obtain ⟨p, rest, rfl, current, -, -, past⟩ := watches.of_reading
    have heard := current.read read
    exact .reading (heard.deliver _) (Nat.le_add_right _ _)
      ((heard.deliver _).patient (.inl (heard.resumed_deliver _))) past
  | @parked link deadline c data bus phase going read offer =>
    rw [phase] at watches
    obtain ⟨p, rest, rfl, current, -, -, past⟩ := watches.of_reading
    exact .delivering (current.read read) past
  | @unwanted link deadline c data bus phase going read offer =>
    rw [phase] at watches
    obtain ⟨p, rest, rfl, current, -, -, past⟩ := watches.of_reading
    simp only [Step.after, Watch.recordAll_cons, Watch.record_undelivered]
    exact left (current.read read) past (by simp)
  | idle phase going read passed stale =>
    rw [phase] at watches
    obtain ⟨p, rest, rfl, current, punctual, patient, past⟩ := watches.of_reading
    rw [Watch.recordAll_leave]
    exact .nothing (open?_leave ..)
      (List.forall_mem_cons.2 ⟨current.fair_idle punctual patient read stale, past⟩)
  | silent phase going read passed fresh =>
    rw [phase] at watches
    obtain ⟨p, rest, rfl, current, -, -, past⟩ := watches.of_reading
    rw [Watch.recordAll_of_quiet (by simp [Event.quiet])]
    exact .reading current (Nat.le_add_right _ _)
      (current.patient (.inr (current.last ▸ fresh))) past
  | givenUp phase close =>
    rw [phase] at watches
    obtain ⟨p, rest, rfl, current, past⟩ := watches.of_delivering
    rw [Step.after, Watch.recordAll_cons, Watch.record_undelivered]
    exact left current past (by simp)
  | abandoned phase going claim =>
    rw [phase] at watches
    obtain ⟨p, rest, rfl, current, past⟩ := watches.of_delivering
    rw [Step.after, Watch.recordAll_cons, Watch.record_undelivered]
    exact left current past (by simp)
  | handedOver phase going claim =>
    rw [phase] at watches
    obtain ⟨p, rest, rfl, current, past⟩ := watches.of_delivering
    exact .reading (current.deliver _) (Nat.le_add_right _ _)
      ((current.deliver _).patient (.inl (current.resumed_deliver _))) past

end Watches

/-- While nothing can be read, a worker that reads only gives the connection up, because it is
closed from this side or because of the silence, or goes on reading. -/
theorem step?_of_silent {h : Hub} {w : Worker} {s : Step} {link : Link} {deadline : Instant}
    (phase : w.phase = .reading link deadline)
    (nothing : link.connection.read? h.now h.policy.readBufferSize = none)
    (step : w.step? h = some s) :
    (∃ reason, s = leave h w reason ∧
      (reason = .closed ∨ reason = .idle (h.now - link.lastMessage))) ∨
    ∃ deadline, s.worker.phase = .reading link deadline ∧ ∀ e ∈ s.events, e.quiet = true := by
  simp only [step?, phase, nothing] at step
  split at step
  · exact .inl ⟨_, (Option.some.inj step).symm, .inl rfl⟩
  · split at step
    · obtain rfl : timeOut h w link = s := Option.some.inj step
      unfold timeOut
      dsimp only
      split
      · exact .inl ⟨_, rfl, .inr rfl⟩
      · exact .inr ⟨_, rfl, by simp [Event.quiet]⟩
    · cases step

end Worker

end FeedCapture
