import FeedCapture.Proofs.Worker.Transition

/-!
# The steps of a worker in outline

As far as links, dials and connections are concerned, a worker does one of few things: it stops,
dials, sees its dial fail, succeed or break down, ends its pause, breaks down when it reads, leaves
its connection, or goes on with it.

## Main definitions

* `Worker.Outline` — the steps of a worker by what they mean for its connection

The main statements say that every step is one of these (`outline_of_transition`), and what follows
when a dial has ended (`dialEnded_of_events`).
-/

namespace FeedCapture.Worker

open Transport

/-- The event is about what passes over a connection. -/
def Event.passing : Event → Bool
  | .read (.brokeDown _) => false
  | .read _ => true
  | .delivered _ => true
  | .undelivered _ _ => true
  | .silent _ => true
  | _ => false

/-- The same step with several things observed before it. -/
def Step.afterAll (s : Step) (es : List Event) : Step := { s with events := es ++ s.events }

@[simp] theorem hub_afterAll (s : Step) (es : List Event) : (s.afterAll es).hub = s.hub := rfl

@[simp] theorem worker_afterAll (s : Step) (es : List Event) :
    (s.afterAll es).worker = s.worker := rfl

@[simp] theorem events_afterAll (s : Step) (es : List Event) :
    (s.afterAll es).events = es ++ s.events := rfl

/-- The steps of a worker by what they mean for its connection. -/
inductive Outline (h : Hub) (w : Worker) : Step → Prop
  | stops (link : w.phase.link = .disconnected ∨ w.phase.link = .dialing)
      (stopping : h.stopping = true) : Outline h w (stop h w)
  | dials (phase : w.phase = .ready) (going : h.stopping = false) : Outline h w (begin h w)
  | refused {due : Instant} {e : Failure} (phase : w.phase = .dialing (some due) (.refused e))
      (going : h.stopping = false) (passed : due ≤ h.now) :
      Outline h w ((failDial h w e).after (.dialEnded (.refused e)))
  | connects {due : Instant} {peer : List (Duration × Peer)} {tuning : Option Tuning}
      (phase : w.phase = .dialing (some due) (.connected peer tuning))
      (going : h.stopping = false) (passed : due ≤ h.now) :
      Outline h w ((connect h w peer tuning).after (.dialEnded (.connected peer tuning)))
  | retries {until_ : Instant} (phase : w.phase = .pausing until_) (going : h.stopping = false)
      (passed : until_ ≤ h.now) :
      Outline h w { hub := h, worker := { w with phase := .ready } }
  /-- A dial breaks down, and the worker with it. -/
  | dialBreaks {due : Instant} {reason : String}
      (phase : w.phase = .dialing (some due) (.breaksDown reason))
      (going : h.stopping = false) (passed : due ≤ h.now) :
      Outline h w ((crash h w reason).after (.dialEnded (.breaksDown reason)))
  /-- A read breaks down, and the worker with it. -/
  | readBreaks {reason : String} (link : w.phase.link = .connected) :
      Outline h w ((crash h w reason).after (.read (.brokeDown reason)))
  /-- The connection is left, for good when nobody receives what came over it. -/
  | leaves (bus : Bus Nat) (reason : ReadExit) (first : List Event)
      (link : w.phase.link = .connected) (passing : ∀ e ∈ first, e.passing = true)
      (unheard : reason = .busClosed →
        h.bus.receiving = false ∧ ∃ m, .undelivered m .closed ∈ first) :
      Outline h w ((leave { h with bus } w reason).afterAll first)
  /-- The worker goes on with its connection. -/
  | goesOn {hub : Hub} {phase : Phase} {events : List Event} (link : w.phase.link = .connected)
      (still : phase.link = .connected) (passing : ∀ e ∈ events, e.passing = true) :
      Outline h w { hub, worker := { w with phase }, events }

/-- Nobody receives when a waiting delivery is told so. -/
theorem receiving_of_claim_eq_closed {b b' : Bus Nat} {slot : Nat} {m : Message}
    (claim : b.claim slot m = (b', some .closed)) : b.receiving = false := by
  cases alive : b.receiving with
  | false => rfl
  | true => exact absurd (congrArg Prod.snd claim) (Bus.claim_ne_closed alive slot m)

/-- Every step of a worker is one of these. -/
theorem outline_of_transition {h : Hub} {w : Worker} {s : Step} (step : Transition h w s) :
    Outline h w s := by
  have one : ∀ {e : Event}, e.passing = true → ∀ e' ∈ [e], e'.passing = true :=
    fun passing => List.forall_mem_singleton.2 passing
  cases step with
  | halt idle stopping =>
    refine .stops ?_ stopping
    rcases idle with phase | ⟨due, outcome, phase⟩ | ⟨until_, phase⟩
    · exact .inl (by rw [phase]; rfl)
    · exact .inr (by rw [phase]; rfl)
    · exact .inl (by rw [phase]; rfl)
  | dial phase going => exact .dials phase going
  | refused phase going passed => exact .refused phase going passed
  | dialBroke phase going passed => exact .dialBreaks phase going passed
  | connected phase going passed => exact .connects phase going passed
  | retry phase going passed => exact .retries phase going passed
  | closed phase close =>
    exact .leaves h.bus .closed [] (by rw [phase]; rfl) (List.forall_mem_nil _)
      fun other => by cases other
  | eof phase going read =>
    exact .leaves h.bus .eof [_] (by rw [phase]; rfl) (one rfl) fun other => by cases other
  | @failed link deadline c e phase going read =>
    exact .leaves h.bus (.failed e) [.read (.failed e)] (by rw [phase]; rfl) (one rfl)
      fun other => by cases other
  | readBroke phase going read => exact .readBreaks (by rw [phase]; rfl)
  | queued phase going read offer =>
    exact .goesOn (by rw [phase]; rfl) rfl (List.forall_mem_cons.2 ⟨rfl, one rfl⟩)
  | parked phase going read offer => exact .goesOn (by rw [phase]; rfl) rfl (one rfl)
  | @unwanted link deadline c data bus phase going read offer =>
    refine .leaves h.bus .busClosed
      [.read (.data data), .undelivered (w.message h data) .closed] (by rw [phase]; rfl)
      (List.forall_mem_cons.2 ⟨rfl, one rfl⟩) fun _ => ⟨(Bus.offer_eq_closed offer).1, ?_⟩
    exact ⟨_, List.mem_cons_of_mem _ (List.mem_singleton.2 rfl)⟩
  | idle phase going read passed stale =>
    exact .leaves h.bus (.idle _) [] (by rw [phase]; rfl) (List.forall_mem_nil _)
      fun other => by cases other
  | silent phase going read passed fresh => exact .goesOn (by rw [phase]; rfl) rfl (one rfl)
  | @givenUp link m phase close =>
    exact .leaves (h.bus.leave w.key.slot) .closed [.undelivered m .stopped] (by rw [phase]; rfl)
      (one rfl) fun other => by cases other
  | @abandoned link m bus phase going claim =>
    exact .leaves bus .busClosed [.undelivered m .closed] (by rw [phase]; rfl) (one rfl)
      fun _ => ⟨receiving_of_claim_eq_closed claim, m, List.mem_singleton.2 rfl⟩
  | handedOver phase going claim => exact .goesOn (by rw [phase]; rfl) rfl (one rfl)

/-- A worker that takes a step has not ended. -/
theorem going_of_transition {h : Hub} {w : Worker} {s : Step} (step : Transition h w s) :
    w.phase.link ≠ .stopped := by
  cases outline_of_transition step with
  | stops link stopping => rcases link with link | link <;> simp [link]
  | dials phase going => simp [phase, Phase.link]
  | refused phase going passed => simp [phase, Phase.link]
  | connects phase going passed => simp [phase, Phase.link]
  | retries phase going passed => simp [phase, Phase.link]
  | dialBreaks phase going passed => simp [phase, Phase.link]
  | readBreaks link => simp [link]
  | leaves bus reason first link passing unheard => simp [link]
  | goesOn link still passing => simp [link]

/-! ## Getting and leaving a connection -/

variable (h : Hub) (w : Worker) (reason : ReadExit)

/-- What is observed when a connection is there. -/
theorem events_connect (peer : List (Duration × Peer)) (tuning : Option Tuning) :
    (connect h w peer tuning).events =
      tune h.policy tuning ++ .connected (w.outage.markUp h.now h.policy.outage).2 ::
        ((h.registry.register (h.tokens.child h.stop).1 w.key
            (h.tokens.child h.stop).2).2.2.map .registry ++
          linkEvents w.phase.link .connected) := by
  simp [connect]

/-- What is observed when a connection is left, before the worker stops if it does. -/
def leaving : List Event :=
  (h.registry.unregister w.key).2.map Event.registry ++ linkEvents w.phase.link .disconnected ++
    [.exited reason]

theorem events_leave :
    (leave h w reason).events = leaving h w reason ++
      if reason = .busClosed then [.link .disconnected .stopped, .stopped] else [] := by
  by_cases closed : reason = .busClosed
  · simp only [leave, if_pos closed]
    rfl
  · simp only [leave, if_neg closed, List.append_nil]
    rfl

/-- Who leaves a connection dials again, or stops when nobody receives. -/
theorem phase_leave :
    (leave h w reason).worker.phase = if reason = .busClosed then .stopped else .ready := by
  by_cases closed : reason = .busClosed <;> simp [leave, closed, stop]

theorem outage_leave : (leave h w reason).worker.outage = (w.outage.markDown h.now).1 := by
  by_cases closed : reason = .busClosed <;> simp [leave, closed, stop]

theorem isConnected_leave : (leave h w reason).worker.isConnected = false := by
  by_cases closed : reason = .busClosed <;>
    simp [isConnected, phase_leave, closed, Phase.link]

/-! ## Dials that have ended -/

/-- A dial has ended. -/
def Event.settles : Event → Bool
  | .dialEnded _ => true
  | _ => false

variable {h w} {s : Step}

theorem settles_of_plain {es : List Event} (plain : Plain es) : ∀ e ∈ es, e.settles = false := by
  intro e mem
  cases e with
  | dialEnded outcome => cases plain _ mem
  | _ => rfl

theorem settles_of_passing {es : List Event} (passing : ∀ e ∈ es, e.passing = true) :
    ∀ e ∈ es, e.settles = false := by
  intro e mem
  cases e with
  | dialEnded outcome => cases passing _ mem
  | _ => rfl

theorem settles_begin (going : h.stopping = false) : ∀ e ∈ (begin h w).events, e.settles = false := by
  rw [events_begin h w going]
  intro e mem
  rcases List.mem_append.1 mem with mem | mem
  · exact settles_of_plain (plain_linkEvents _ _) e mem
  · obtain rfl := List.mem_singleton.1 mem
    rfl

theorem settles_failDial (e : Failure) : ∀ e' ∈ (failDial h w e).events, e'.settles = false := by
  intro e' mem
  rcases List.mem_append.1 mem with mem | mem
  · exact settles_of_plain (plain_linkEvents _ _) e' mem
  · obtain rfl := List.mem_singleton.1 mem
    rfl

theorem settles_connect (peer : List (Duration × Peer)) (tuning : Option Tuning) :
    ∀ e ∈ (connect h w peer tuning).events, e.settles = false := by
  rw [events_connect]
  intro e mem
  simp only [List.mem_append, List.mem_cons, List.mem_map] at mem
  rcases mem with mem | rfl | ⟨notice, -, rfl⟩ | mem
  · exact settles_of_plain (plain_tune _ _) e mem
  · rfl
  · rfl
  · exact settles_of_plain (plain_linkEvents _ _) e mem

/-- What is told of a dial that has ended is told first, and followed by what it leads to. -/
theorem dialEnded_of_events {outcome : Outcome} {pre post : List Event} (step : Transition h w s)
    (events : s.events = pre ++ .dialEnded outcome :: post) :
    pre = [] ∧ (∃ due, w.phase = .dialing (some due) outcome) ∧
      s = (dialEnded h w outcome).after (.dialEnded outcome) := by
  have mem : .dialEnded outcome ∈ s.events := by simp [events]
  have other : ∀ {es : List Event} {p : Prop}, .dialEnded outcome ∈ es →
      (∀ e ∈ es, e.settles = false) → p := fun mem none => by cases none _ mem
  -- nothing is told twice
  have first : ∀ {outcome' : Outcome} {rest : List Event},
      .dialEnded outcome' :: rest = pre ++ .dialEnded outcome :: post →
      (∀ e ∈ rest, e.settles = false) → pre = [] ∧ outcome' = outcome := by
    intro outcome' rest same none
    rcases List.append_eq_cons_iff.1 same.symm with ⟨rfl, eq⟩ | ⟨pre', -, tail⟩
    · cases eq
      exact ⟨rfl, rfl⟩
    · have again : .dialEnded outcome ∈ rest := by simp [tail]
      exact other again none
  cases outline_of_transition step with
  | stops link stopping => exact other mem (settles_of_plain (plain_stop h w))
  | dials phase going => exact other mem (settles_begin going)
  | @refused due e phase going passed =>
    obtain ⟨rfl, rfl⟩ := first events (settles_failDial e)
    exact ⟨rfl, ⟨due, phase⟩, rfl⟩
  | @connects due peer tuning phase going passed =>
    obtain ⟨rfl, rfl⟩ := first events (settles_connect peer tuning)
    exact ⟨rfl, ⟨due, phase⟩, rfl⟩
  | retries phase going passed => cases mem
  | @dialBreaks due reason phase going passed =>
    obtain ⟨rfl, rfl⟩ := first events (settles_of_plain (plain_crash h w reason))
    exact ⟨rfl, ⟨due, phase⟩, rfl⟩
  | @readBreaks reason link =>
    refine other mem (List.forall_mem_cons.2 ⟨rfl, settles_of_plain (plain_crash h w reason)⟩)
  | leaves bus reason first link passing unheard =>
    rcases List.mem_append.1 mem with mem | mem
    · exact other mem (settles_of_passing passing)
    · exact other mem (settles_of_plain (plain_leave _ _ _))
  | goesOn link still passing => exact other mem (settles_of_passing passing)

end FeedCapture.Worker
