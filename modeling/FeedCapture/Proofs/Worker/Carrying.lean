import FeedCapture.Proofs.Passage.Faithful

/-!
# What a worker carries from its connections to the bus

Each step of a worker keeps its connections faithful: it reads only when it holds nothing, and what
it holds is from the last read of the connection that is open.

## Main definitions

* `Passage.recordAll` — the connections of a worker after some events
* `Worker.Carries` — the connections of a worker, by what it is doing

The main statements say that a step keeps the connections faithful (`Carries.transition`), and that
the queue grows by the messages of the connection that is open (`queue_of_transition`,
`Carries.flatMap_queued`).
-/

namespace FeedCapture

open Transport

/-! ## What is noted of a connection -/

/-- The event says nothing about what passes over a connection. -/
def Worker.Event.quiet : Worker.Event → Bool
  | .dialEnded (.connected _ _) => false
  | .read (.data _) => false
  | .delivered _ => false
  | .undelivered _ _ => false
  | .exited _ => false
  | _ => true

namespace Passage

theorem record_of_quiet {e : Worker.Event} (h : e.quiet = true) (t : Instant)
    (ps : List Passage) : record t e ps = ps := by
  have same : ∀ p : Passage, p.note t e = p := by
    intro p
    cases e with
    | read result => cases result <;> first | rfl | cases h
    | _ => first | rfl | cases h
  cases e with
  | dialEnded outcome => cases outcome <;> cases ps <;> first | rfl | cases h
  | _ => cases ps <;> simp [record, same]

/-- Takes in several things that a worker does at an instant, one after the other. -/
def recordAll (t : Instant) (es : List Worker.Event) (ps : List Passage) : List Passage :=
  es.foldl (fun ps e => record t e ps) ps

@[simp] theorem recordAll_nil (t : Instant) (ps : List Passage) : recordAll t [] ps = ps := rfl

@[simp] theorem recordAll_cons (t : Instant) (e : Worker.Event) (es : List Worker.Event)
    (ps : List Passage) : recordAll t (e :: es) ps = recordAll t es (record t e ps) := rfl

theorem recordAll_append (t : Instant) (xs ys : List Worker.Event) (ps : List Passage) :
    recordAll t (xs ++ ys) ps = recordAll t ys (recordAll t xs ps) := List.foldl_append ..

theorem recordAll_of_quiet {es : List Worker.Event} (h : ∀ e ∈ es, e.quiet = true) (t : Instant)
    (ps : List Passage) : recordAll t es ps = ps := by
  induction es with
  | nil => rfl
  | cons e es ih =>
    rw [recordAll_cons, record_of_quiet (h e (by simp)), ih fun e he => h e (by simp [he])]

/-- The log after a step is that before it, with what the step did. -/
theorem ofLog_append (t : Instant) (es : List Worker.Event)
    (log : List (Instant × Worker.Event)) :
    ofLog ((es.map fun e => (t, e)).reverse ++ log) = recordAll t es (ofLog log) := by
  simp [ofLog, recordAll, List.foldl_map]

end Passage

namespace Worker

theorem quiet_linkEvents (source target : LinkState) :
    ∀ e ∈ linkEvents source target, e.quiet = true := by
  intro e he
  unfold linkEvents at he
  split at he
  · cases he
  · rw [List.mem_singleton.1 he]
    rfl

theorem quiet_notices (notices : List Registry.Notice) :
    ∀ e ∈ notices.map Event.registry, e.quiet = true := by
  intro e he
  obtain ⟨n, -, rfl⟩ := List.mem_map.1 he
  rfl

theorem quiet_tune (p : Policy) (tuning : Option Tuning) :
    ∀ e ∈ tune p tuning, e.quiet = true := by
  intro e he
  cases tuning with
  | none =>
    rw [List.mem_singleton.1 he]
    rfl
  | some tuning =>
    simp only [tune, List.mem_cons] at he
    rcases he with rfl | he
    · rfl
    · split at he
      · rw [List.mem_singleton.1 he]
        rfl
      · cases he

theorem quiet_stop (h : Hub) (w : Worker) : ∀ e ∈ (stop h w).events, e.quiet = true := by
  intro e he
  rcases List.mem_append.1 he with he | he
  · exact quiet_linkEvents _ _ e he
  · rw [List.mem_singleton.1 he]
    rfl

theorem quiet_begin (h : Hub) (w : Worker) : ∀ e ∈ (begin h w).events, e.quiet = true := by
  unfold begin
  split
  · exact quiet_stop h w
  · intro e he
    rcases List.mem_append.1 he with he | he
    · exact quiet_linkEvents _ _ e he
    · rw [List.mem_singleton.1 he]
      rfl

theorem quiet_failDial (h : Hub) (w : Worker) (f : Failure) :
    ∀ e ∈ (failDial h w f).events, e.quiet = true := by
  intro e he
  rcases List.mem_append.1 he with he | he
  · exact quiet_linkEvents _ _ e he
  · rw [List.mem_singleton.1 he]
    rfl

theorem quiet_crash (h : Hub) (w : Worker) (reason : String) :
    ∀ e ∈ (crash h w reason).events, e.quiet = true := quiet_notices _

theorem quiet_connect (h : Hub) (w : Worker) (peer : List (Duration × Peer))
    (tuning : Option Tuning) : ∀ e ∈ (connect h w peer tuning).events, e.quiet = true := by
  intro e he
  simp only [connect, List.mem_append, List.mem_singleton] at he
  rcases he with ((he | rfl) | he) | he
  · exact quiet_tune _ _ e he
  · rfl
  · exact quiet_notices _ e he
  · exact quiet_linkEvents _ _ e he

/-- Leaving a connection notes why, and nothing else. -/
theorem recordAll_leave (h : Hub) (w : Worker) (reason : ReadExit) (t : Instant)
    (ps : List Passage) :
    Passage.recordAll t (leave h w reason).events ps =
      ps.modifyHead fun p => { p with ending := some (t, reason) } := by
  have early := quiet_notices (h.registry.unregister w.key).2
  have change := quiet_linkEvents w.phase.link .disconnected
  simp only [leave]
  split
  · simp only [Passage.recordAll_append, Passage.recordAll_of_quiet early,
      Passage.recordAll_of_quiet change, Passage.recordAll_of_quiet (quiet_stop _ _)]
    rfl
  · simp only [Passage.recordAll_append, Passage.recordAll_of_quiet early,
      Passage.recordAll_of_quiet change]
    rfl

end Worker

/-! ## What a worker carries -/

namespace Worker

/-- The connections of a worker, the latest first, by what it is doing. -/
inductive Carries (room : Nat) (now : Instant) : Phase → List Passage → Prop
  | nothing {phase : Phase} {ps : List Passage} (shut : phase.open? = none)
      (past : ∀ p ∈ ps, p.Faithful room now none) : Carries room now phase ps
  | reading {link : Link} {deadline : Instant} {p : Passage} {ps : List Passage}
      (current : p.Open room now link []) (past : ∀ p ∈ ps, p.Faithful room now none) :
      Carries room now (.reading link deadline) (p :: ps)
  | delivering {link : Link} {m : Message} {p : Passage} {ps : List Passage}
      (current : p.Open room now link [m]) (past : ∀ p ∈ ps, p.Faithful room now none) :
      Carries room now (.delivering link m) (p :: ps)

namespace Carries

variable {room : Nat} {now : Instant} {phase : Phase} {ps : List Passage}

theorem later (h : Carries room now phase ps) {t : Instant} (ht : now ≤ t) :
    Carries room t phase ps := by
  cases h with
  | nothing shut past => exact .nothing shut fun p hp => (past p hp).later ht
  | reading current past => exact .reading (current.later ht) fun p hp => (past p hp).later ht
  | delivering current past =>
    exact .delivering (current.later ht) fun p hp => (past p hp).later ht

/-- All connections but the one that is open are over. -/
theorem faithful_of_shut (h : Carries room now phase ps) (shut : phase.open? = none) :
    ∀ p ∈ ps, p.Faithful room now none := by
  cases h with
  | nothing _ past => exact past
  | reading => cases shut
  | delivering => cases shut

theorem of_reading {link : Link} {deadline : Instant}
    (h : Carries room now (.reading link deadline) ps) :
    ∃ p rest, ps = p :: rest ∧ p.Open room now link [] ∧
      ∀ q ∈ rest, q.Faithful room now none := by
  cases h with
  | nothing shut _ => cases shut
  | reading current past => exact ⟨_, _, rfl, current, past⟩

theorem of_delivering {link : Link} {m : Message}
    (h : Carries room now (.delivering link m) ps) :
    ∃ p rest, ps = p :: rest ∧ p.Open room now link [m] ∧
      ∀ q ∈ rest, q.Faithful room now none := by
  cases h with
  | nothing shut _ => cases shut
  | delivering current past => exact ⟨_, _, rfl, current, past⟩

end Carries

/-- A step keeps what is on the bus faithful to what the peers sent. -/
theorem Carries.transition {h : Hub} {w : Worker} {s : Step} {ps : List Passage}
    (step : Transition h w s) (pos : 0 < h.policy.readBufferSize)
    (carries : Carries h.policy.readBufferSize h.now w.phase ps) :
    Carries h.policy.readBufferSize h.now s.worker.phase
      (Passage.recordAll h.now s.events ps) := by
  cases step with
  | halt idle stopping =>
    rw [Passage.recordAll_of_quiet (quiet_stop h w)]
    refine .nothing rfl (carries.faithful_of_shut ?_)
    rcases idle with phase | ⟨due, outcome, phase⟩ | ⟨until_, phase⟩ <;> rw [phase] <;> rfl
  | dial phase going =>
    rw [Passage.recordAll_of_quiet (quiet_begin h w)]
    exact .nothing (open?_begin h w) (carries.faithful_of_shut (by rw [phase]; rfl))
  | refused phase going passed =>
    rw [Step.after, Passage.recordAll_cons, Passage.record_of_quiet rfl,
      Passage.recordAll_of_quiet (quiet_failDial h w _)]
    exact .nothing rfl (carries.faithful_of_shut (by rw [phase]; rfl))
  | dialBroke phase going passed =>
    rw [Step.after, Passage.recordAll_cons, Passage.record_of_quiet rfl,
      Passage.recordAll_of_quiet (quiet_crash h w _)]
    exact .nothing rfl (carries.faithful_of_shut (by rw [phase]; rfl))
  | connected phase going passed =>
    rw [Step.after, Passage.recordAll_cons, Passage.recordAll_of_quiet (quiet_connect h w _ _)]
    have past := carries.faithful_of_shut (by rw [phase]; rfl)
    simp only [phase_connect]
    exact .reading (Passage.open_new ..) past
  | retry phase going passed =>
    exact .nothing rfl (carries.faithful_of_shut (by rw [phase]; rfl))
  | closed phase close =>
    rw [phase] at carries
    obtain ⟨p, rest, rfl, current, past⟩ := carries.of_reading
    rw [recordAll_leave]
    refine .nothing (open?_leave ..) (List.forall_mem_cons.2 ⟨?_, past⟩)
    exact current.faithful_of_ending .closed (by intro h; cases h)
  | eof phase going read =>
    rw [phase] at carries
    obtain ⟨p, rest, rfl, current, past⟩ := carries.of_reading
    rw [Step.after, Passage.recordAll_cons, Passage.record_of_quiet rfl, recordAll_leave]
    refine .nothing (open?_leave ..) (List.forall_mem_cons.2 ⟨?_, past⟩)
    have all := Connection.bytesBy_of_read?_other pos read (by simp) h.now
    exact current.faithful_of_ending .eof fun _ => all
  | failed phase going read =>
    rw [phase] at carries
    obtain ⟨p, rest, rfl, current, past⟩ := carries.of_reading
    rw [Step.after, Passage.recordAll_cons, Passage.record_of_quiet rfl, recordAll_leave]
    refine .nothing (open?_leave ..) (List.forall_mem_cons.2 ⟨?_, past⟩)
    have all := Connection.bytesBy_of_read?_other pos read (by simp) h.now
    exact current.faithful_of_ending (.failed _) fun _ => all
  | readBroke phase going read =>
    rw [phase] at carries
    obtain ⟨p, rest, rfl, current, past⟩ := carries.of_reading
    rw [Step.after, Passage.recordAll_cons, Passage.record_of_quiet rfl,
      Passage.recordAll_of_quiet (quiet_crash h w _)]
    exact .nothing rfl (List.forall_mem_cons.2 ⟨current.faithful, past⟩)
  | @queued link deadline c data bus phase going read offer =>
    rw [phase] at carries
    obtain ⟨p, rest, rfl, current, past⟩ := carries.of_reading
    have taken : Passage.Open _ _ (link.readNow h c) [w.message h data] _ := current.read read
    exact .reading taken.deliver past
  | @parked link deadline c data bus phase going read offer =>
    rw [phase] at carries
    obtain ⟨p, rest, rfl, current, past⟩ := carries.of_reading
    have taken : Passage.Open _ _ (link.readNow h c) [w.message h data] _ := current.read read
    exact .delivering taken past
  | @unwanted link deadline c data bus phase going read offer =>
    rw [phase] at carries
    obtain ⟨p, rest, rfl, current, past⟩ := carries.of_reading
    simp only [Step.after, Passage.recordAll_cons, recordAll_leave]
    refine .nothing (open?_leave ..) (List.forall_mem_cons.2 ⟨?_, past⟩)
    have taken : Passage.Open _ _ (link.readNow h c) [w.message h data] _ := current.read read
    exact taken.faithful_of_missing (.inr ⟨rfl, rfl⟩)
  | idle phase going read passed stale =>
    rw [phase] at carries
    obtain ⟨p, rest, rfl, current, past⟩ := carries.of_reading
    rw [recordAll_leave]
    refine .nothing (open?_leave ..) (List.forall_mem_cons.2 ⟨?_, past⟩)
    have all := Connection.bytesBy_of_read?_eq_none read
    exact current.faithful_of_ending (.idle _) fun _ => all
  | silent phase going read passed fresh =>
    rw [phase] at carries
    obtain ⟨p, rest, rfl, current, past⟩ := carries.of_reading
    exact .reading current past
  | givenUp phase close =>
    rw [phase] at carries
    obtain ⟨p, rest, rfl, current, past⟩ := carries.of_delivering
    rw [Step.after, Passage.recordAll_cons, recordAll_leave]
    refine .nothing (open?_leave ..) (List.forall_mem_cons.2 ⟨?_, past⟩)
    exact current.faithful_of_missing (.inl ⟨rfl, rfl⟩)
  | abandoned phase going claim =>
    rw [phase] at carries
    obtain ⟨p, rest, rfl, current, past⟩ := carries.of_delivering
    rw [Step.after, Passage.recordAll_cons, recordAll_leave]
    refine .nothing (open?_leave ..) (List.forall_mem_cons.2 ⟨?_, past⟩)
    exact current.faithful_of_missing (.inr ⟨rfl, rfl⟩)
  | handedOver phase going claim =>
    rw [phase] at carries
    obtain ⟨p, rest, rfl, current, past⟩ := carries.of_delivering
    exact .reading current.deliver past

/-! ## The queue -/

theorem messages_of_quiet {s : Step} (h : ∀ e ∈ s.events, e.quiet = true) : s.messages = [] := by
  rw [Step.messages, List.filterMap_eq_nil_iff]
  intro e he
  have := h e he
  cases e <;> first | rfl | cases this

@[simp] theorem messages_after (s : Step) (e : Event) :
    (s.after e).messages = e.message?.toList ++ s.messages := by
  cases h : e.message? <;> simp [Step.messages, Step.after, h]

@[simp] theorem messages_leave (h : Hub) (w : Worker) (reason : ReadExit) :
    (leave h w reason).messages = [] := by
  rw [Step.messages, List.filterMap_eq_nil_iff]
  intro e he
  have quiet : e.quiet = true ∨ e = .exited reason := by
    simp only [leave] at he
    split at he
    · simp only [List.mem_append, List.mem_singleton] at he
      rcases he with ((he | he) | he) | he
      · exact .inl (quiet_notices _ e he)
      · exact .inl (quiet_linkEvents _ _ e he)
      · exact .inr he
      · exact .inl (quiet_stop _ _ e he)
    · simp only [List.mem_append, List.mem_singleton] at he
      rcases he with (he | he) | he
      · exact .inl (quiet_notices _ e he)
      · exact .inl (quiet_linkEvents _ _ e he)
      · exact .inr he
  rcases quiet with quiet | rfl
  · cases e <;> first | rfl | cases quiet
  · rfl

@[simp] theorem messages_delivered (h : Hub) (w : Worker) (link : Link) (m : Message) :
    (delivered h w link m).messages = [m] := rfl

/-- The queue grows by the messages that a worker puts on the bus, and by nothing else. -/
theorem queue_of_transition {h : Hub} {w : Worker} {s : Step} (step : Transition h w s) :
    s.hub.bus.queue = h.bus.queue ++ s.messages := by
  cases step with
  | halt idle stopping => simp [messages_of_quiet (quiet_stop h w)]
  | dial phase going => simp [messages_of_quiet (quiet_begin h w)]
  | refused phase going passed => simp [messages_of_quiet (quiet_failDial h w _)]
  | dialBroke phase going passed => simp [messages_of_quiet (quiet_crash h w _)]
  | connected phase going passed => simp [messages_of_quiet (quiet_connect h w _ _)]
  | retry phase going passed => simp [Step.messages]
  | closed phase close => simp
  | eof phase going read => simp
  | failed phase going read => simp
  | readBroke phase going read => simp [messages_of_quiet (quiet_crash h w _)]
  | queued phase going read offer =>
    obtain ⟨-, -, rfl⟩ := Bus.offer_eq_queued offer
    simp
  | parked phase going read offer =>
    obtain ⟨-, -, rfl⟩ := Bus.offer_eq_full offer
    simp [Step.messages]
  | unwanted phase going read offer => simp
  | idle phase going read passed stale => simp
  | silent phase going read passed fresh => simp [Step.messages, Event.message?]
  | givenUp phase close => simp
  | @abandoned link m bus phase going claim =>
    have queue := Bus.queue_claim h.bus w.key.slot m
    rw [claim] at queue
    simpa using queue
  | @handedOver link m bus phase going claim =>
    have queue := Bus.queue_claim h.bus w.key.slot m
    rw [claim] at queue
    simpa using queue

/-- Only a worker with a connection puts a message on the bus, and only while somebody receives. -/
theorem messages_of_transition {h : Hub} {w : Worker} {s : Step} (step : Transition h w s) :
    s.messages = [] ∨ w.phase.open? ≠ none ∧ h.bus.receiving = true := by
  cases step with
  | halt idle stopping => exact .inl (messages_of_quiet (quiet_stop h w))
  | dial phase going => exact .inl (messages_of_quiet (quiet_begin h w))
  | refused phase going passed => exact .inl (by simp [messages_of_quiet (quiet_failDial h w _)])
  | dialBroke phase going passed => exact .inl (by simp [messages_of_quiet (quiet_crash h w _)])
  | connected phase going passed => exact .inl (by simp [messages_of_quiet (quiet_connect h w _ _)])
  | readBroke phase going read => exact .inl (by simp [messages_of_quiet (quiet_crash h w _)])
  | queued phase going read offer =>
    exact .inr ⟨by simp [phase, Phase.open?], (Bus.offer_eq_queued offer).1⟩
  | handedOver phase going claim =>
    exact .inr ⟨by simp [phase, Phase.open?], Bus.receiving_of_claim_eq_delivered claim⟩
  | retry => exact .inl rfl
  | parked => exact .inl rfl
  | silent => exact .inl rfl
  | closed => exact .inl (by simp)
  | eof => exact .inl (by simp)
  | failed => exact .inl (by simp)
  | unwanted => exact .inl (by simp)
  | idle => exact .inl (by simp)
  | givenUp => exact .inl (by simp)
  | abandoned => exact .inl (by simp)

end Worker

/-! ## Which connection a message belongs to -/

namespace Passage

theorem queued_note (t : Instant) (p : Passage) (e : Worker.Event) :
    (p.note t e).queued = p.queued ++ e.message?.toList := by
  cases e with
  | read result => cases result <;> simp [note]
  | delivered m => simp [note]
  | _ => simp [note, Worker.Event.message?]

theorem flatMap_queued_record (t : Instant) (e : Worker.Event) (ps : List Passage)
    (some : ps ≠ [] ∨ e.message? = none) :
    (record t e ps).reverse.flatMap (·.queued) =
      ps.reverse.flatMap (·.queued) ++ e.message?.toList := by
  by_cases new : ∃ peer tuning, e = .dialEnded (.connected peer tuning)
  · obtain ⟨peer, tuning, rfl⟩ := new
    simp [record]
  · have same : record t e ps = ps.modifyHead fun p => p.note t e := by
      unfold record
      split
      · next peer tuning => exact absurd ⟨peer, tuning, rfl⟩ new
      · rfl
    cases ps with
    | nil => simpa [same] using some
    | cons p ps => simp [same, queued_note]

theorem record_ne_nil {t : Instant} {e : Worker.Event} {ps : List Passage} (h : ps ≠ []) :
    record t e ps ≠ [] := by
  unfold record
  split
  · simp
  · cases ps with
    | nil => exact absurd rfl h
    | cons p ps => simp

/-- Every message that is put on the bus belongs to the connection that is open. -/
theorem flatMap_queued_recordAll (t : Instant) (es : List Worker.Event) (ps : List Passage)
    (some : ps ≠ [] ∨ es.filterMap Worker.Event.message? = []) :
    (recordAll t es ps).reverse.flatMap (·.queued) =
      ps.reverse.flatMap (·.queued) ++ es.filterMap Worker.Event.message? := by
  induction es generalizing ps with
  | nil => simp
  | cons e es ih =>
    have now : ps ≠ [] ∨ e.message? = none := by
      rcases some with some | none
      · exact .inl some
      · rw [List.filterMap_eq_nil_iff] at none
        exact .inr (none e (by simp))
    have next : record t e ps ≠ [] ∨ es.filterMap Worker.Event.message? = [] := by
      rcases some with some | none
      · exact .inl (record_ne_nil some)
      · rw [List.filterMap_eq_nil_iff] at none ⊢
        exact .inr fun e he => none e (by simp [he])
    rw [recordAll_cons, ih _ next, flatMap_queued_record t e ps now, List.append_assoc]
    cases h : e.message? <;> simp [h]

end Passage

/-- Every message that a step puts on the bus belongs to the connection of the worker. -/
theorem Worker.Carries.flatMap_queued {h : Hub} {w : Worker} {s : Worker.Step}
    {ps : List Passage} {room : Nat} {now : Instant} (step : Worker.Transition h w s)
    (carries : Worker.Carries room now w.phase ps) :
    (Passage.recordAll h.now s.events ps).reverse.flatMap (·.queued) =
      ps.reverse.flatMap (·.queued) ++ s.messages := by
  refine Passage.flatMap_queued_recordAll _ _ _ ?_
  generalize doing : w.phase = phase at carries
  cases carries with
  | nothing shut past =>
    rcases Worker.messages_of_transition step with none | ⟨some, -⟩
    · exact .inr none
    · exact absurd (doing ▸ shut) some
  | reading current past => exact .inl (List.cons_ne_nil _ _)
  | delivering current past => exact .inl (List.cons_ne_nil _ _)

end FeedCapture
