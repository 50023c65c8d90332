import FeedCapture.Proofs.Fleet.Logs
import FeedCapture.Proofs.Fleet.Stopping
import FeedCapture.Proofs.Worker.Outline
import Mathlib.Algebra.Group.Prod
import Mathlib.Algebra.BigOperators.Group.List.Basic
import Mathlib.Algebra.Ring.Int.Defs

/-!
# The link of a worker, told from the log

The changes of a worker's link form a chain: each starts where the one before it ended, and only six
of them are possible.  The worker has at most one dial under way or one connection, and not both.

## Main definitions

* `LinkState.Edge`, `LinkState.Chain` — the changes of a link that can happen, one or several
* `Worker.changes` — the changes of the link that are told
* `Worker.ties` — how many dials are under way and how many connections there are, by the log
* `Worker.Linked` — what a worker does agrees with its log

The main statements are `Linked.transition` and `halts_of_events`.
-/

namespace FeedCapture

/-- The changes of a link that can happen. -/
inductive LinkState.Edge : LinkState → LinkState → Prop
  | dials : Edge .disconnected .dialing
  | connects : Edge .dialing .connected
  | fails : Edge .dialing .disconnected
  | ends : Edge .connected .disconnected
  | stops : Edge .disconnected .stopped
  | givesUp : Edge .dialing .stopped

/-- Changes of a link, each from where the one before it led. -/
inductive LinkState.Chain : LinkState → List (LinkState × LinkState) → LinkState → Prop
  | refl (a : LinkState) : Chain a [] a
  | change {a b c : LinkState} {xs : List (LinkState × LinkState)} (edge : Edge a b)
      (rest : Chain b xs c) : Chain a ((a, b) :: xs) c

namespace LinkState.Chain

variable {a b c : LinkState} {xs ys : List (LinkState × LinkState)}

theorem single (edge : Edge a b) : Chain a [(a, b)] b := .change edge (.refl b)

theorem trans (first : Chain a xs b) (rest : Chain b ys c) : Chain a (xs ++ ys) c := by
  induction first with
  | refl a => exact rest
  | change edge _ ih => exact .change edge (ih rest)

/-- A link that is stopped does not change any more. -/
theorem eq_nil_of_stopped (chain : Chain a (xs ++ (b, .stopped) :: ys) c) : ys = [] := by
  induction xs generalizing a with
  | nil =>
    cases chain with
    | change edge rest =>
      cases rest with
      | refl => rfl
      | change edge rest => cases edge
  | cons x xs ih =>
    cases chain with
    | change edge rest => exact ih rest

/-- A chain that leads elsewhere ends with a change. -/
theorem exists_mem_of_ne (chain : Chain a xs c) (hne : a ≠ c) : ∃ b, (b, c) ∈ xs := by
  induction chain with
  | refl a => exact absurd rfl hne
  | @change a b c xs edge rest ih =>
    by_cases same : b = c
    · exact ⟨a, by simp [same]⟩
    · obtain ⟨b', mem⟩ := ih same
      exact ⟨b', List.mem_cons_of_mem _ mem⟩

end LinkState.Chain

namespace Worker

open Transport

/-- The change of the link that an event tells. -/
def Event.change? : Event → Option (LinkState × LinkState)
  | .link source target => some (source, target)
  | _ => none

/-- The changes of the link that some events tell. -/
def changes (es : List Event) : List (LinkState × LinkState) := es.filterMap Event.change?

/-- How an event changes the number of dials that are under way, and that of connections. -/
def Event.tie? : Event → Option (Int × Int)
  | .dialed => some (1, 0)
  | .dialEnded (.connected _ _) => some (-1, 1)
  | .dialEnded _ => some (-1, 0)
  -- a dial that is under way is given up when the worker stops
  | .link .dialing .stopped => some (-1, 0)
  | .exited _ => some (0, -1)
  | .read (.brokeDown _) => some (0, -1)
  | _ => none

/-- How many dials are under way and how many connections there are, by the log. -/
def ties (log : List (Instant × Event)) : Int × Int :=
  (log.filterMap fun x => x.2.tie?).sum

/-- How many dials are under way and how many connections there are in the state of a link. -/
def tiesOf : LinkState → Int × Int
  | .dialing => (1, 0)
  | .connected => (0, 1)
  | _ => (0, 0)

variable {h : Hub} {w : Worker} {s : Step} {t : Instant} {es : List Event}
  {log : List (Instant × Event)}

/-! ## The parts of a step -/

/-- The event says nothing about links, dials and connections. -/
def Event.aside (e : Event) : Prop := e.change? = none ∧ e.tie? = none

theorem aside_of_passing {e : Event} (passing : e.passing = true) : e.aside := by
  cases e with
  | read result => cases result <;> first | exact ⟨rfl, rfl⟩ | cases passing
  | _ => first | exact ⟨rfl, rfl⟩ | cases passing

theorem aside_notices (notices : List Registry.Notice) :
    ∀ e ∈ notices.map Event.registry, e.aside := by
  intro e mem
  obtain ⟨notice, -, rfl⟩ := List.mem_map.1 mem
  exact ⟨rfl, rfl⟩

theorem aside_tune (p : Policy) (tuning : Option Tuning) : ∀ e ∈ tune p tuning, e.aside := by
  intro e mem
  cases tuning with
  | none =>
    obtain rfl := List.mem_singleton.1 mem
    exact ⟨rfl, rfl⟩
  | some tuning =>
    simp only [tune, List.mem_cons] at mem
    rcases mem with rfl | mem
    · exact ⟨rfl, rfl⟩
    · split at mem
      · obtain rfl := List.mem_singleton.1 mem
        exact ⟨rfl, rfl⟩
      · cases mem

/-- What several events tell about the link, and about dials and connections. -/
structure Tells (es : List Event) (links : List (LinkState × LinkState))
    (turns : List (Int × Int)) : Prop where
  links : changes es = links
  turns : es.filterMap Event.tie? = turns

namespace Tells

variable {xs ys : List Event} {links links' : List (LinkState × LinkState)}
  {turns turns' : List (Int × Int)} {e : Event}

theorem aside (none : ∀ e ∈ es, e.aside) : Tells es [] [] where
  links := List.filterMap_eq_nil_iff.2 fun e mem => (none e mem).1
  turns := List.filterMap_eq_nil_iff.2 fun e mem => (none e mem).2

theorem append (first : Tells xs links turns) (rest : Tells ys links' turns') :
    Tells (xs ++ ys) (links ++ links') (turns ++ turns') where
  links := by rw [← first.links, ← rest.links, changes, List.filterMap_append]; rfl
  turns := by rw [← first.turns, ← rest.turns, List.filterMap_append]

/-- What is told after the begin or end of a dial or a connection. -/
theorem cons {turn : Int × Int} (rest : Tells ys links turns) (link : e.change? = none)
    (tie : e.tie? = some turn) : Tells (e :: ys) links (turn :: turns) where
  links := by rw [← rest.links, changes, List.filterMap_cons_none link]; rfl
  turns := by rw [← rest.turns, List.filterMap_cons_some tie]

/-- What is told after some events that say nothing of the kind. -/
theorem after (rest : Tells ys links turns) (none : ∀ e ∈ xs, e.aside) :
    Tells (xs ++ ys) links turns := (aside none).append rest

end Tells

/-- What a step tells: changes of the link that lead from the link before it to the one after it,
and the one dial or connection that begins or ends, if any. -/
structure Accords (w : Worker) (s : Step) : Prop where
  links : ∃ last, LinkState.Chain w.phase.link (changes s.events) last ∧
    (s.worker.phase.crash? = none → last = s.worker.phase.link)
  turns : s.events.filterMap Event.tie? = [] ∧ tiesOf s.worker.phase.link = tiesOf w.phase.link ∨
    ∃ turn, s.events.filterMap Event.tie? = [turn] ∧
      tiesOf s.worker.phase.link = tiesOf w.phase.link + turn

namespace Accords

variable {links : List (LinkState × LinkState)} {turn : Int × Int}

/-- No dial and no connection begins or ends. -/
theorem of_none (tells : Tells s.events links [])
    (chain : LinkState.Chain w.phase.link links s.worker.phase.link)
    (same : tiesOf s.worker.phase.link = tiesOf w.phase.link) : Accords w s where
  links := ⟨_, tells.links ▸ chain, fun _ => rfl⟩
  turns := .inl ⟨tells.turns, same⟩

/-- A dial or a connection begins or ends. -/
theorem of_one (tells : Tells s.events links [turn])
    (chain : LinkState.Chain w.phase.link links s.worker.phase.link)
    (changed : tiesOf s.worker.phase.link = tiesOf w.phase.link + turn) : Accords w s where
  links := ⟨_, tells.links ▸ chain, fun _ => rfl⟩
  turns := .inr ⟨turn, tells.turns, changed⟩

/-- A dial or a connection ends, and nothing is told of the link, because the worker has broken
down. -/
theorem of_crash (turn : Int × Int) (tells : Tells s.events [] [turn]) (broken : s.worker.phase.crash? ≠ none)
    (changed : tiesOf s.worker.phase.link = tiesOf w.phase.link + turn) : Accords w s where
  links := ⟨w.phase.link, by rw [tells.links]; exact .refl _, fun whole => absurd whole broken⟩
  turns := .inr ⟨turn, tells.turns, changed⟩

end Accords

/-- What is told when a dial starts. -/
theorem tells_begin (phase : w.phase = .ready) (going : h.stopping = false) :
    Tells (begin h w).events [(.disconnected, .dialing)] [(1, 0)] := by
  rw [events_begin h w going, phase]
  exact ⟨rfl, rfl⟩

/-- What is told when a dial has failed. -/
theorem tells_failDial (link : w.phase.link = .dialing) (e : Failure) :
    Tells (.dialEnded (.refused e) :: (failDial h w e).events) [(.dialing, .disconnected)]
      [(-1, 0)] := by
  have told : (failDial h w e).events = [.link .dialing .disconnected,
      .dialFailed e (w.failedDials + 1) h.policy.reconnectDelay] := by
    simp [failDial, linkEvents, link]
  rw [told]
  exact ⟨rfl, rfl⟩

/-- What is told when a connection is there. -/
theorem tells_connect (link : w.phase.link = .dialing) (peer : List (Duration × Peer))
    (tuning : Option Tuning) :
    Tells (.dialEnded (.connected peer tuning) :: (connect h w peer tuning).events)
      [(.dialing, .connected)] [(-1, 1)] := by
  have told : Tells (linkEvents w.phase.link .connected) [(.dialing, .connected)] [] := by
    constructor <;> simp [linkEvents, link, changes, Event.change?, Event.tie?]
  have called : ∀ r, ∀ e ∈ [Event.connected r], e.aside := fun r =>
    List.forall_mem_singleton.2 ⟨rfl, rfl⟩
  rw [events_connect]
  exact ((((told.after (aside_notices _)).after (called _))).after (aside_tune _ _)).cons rfl rfl

/-- What is told when a connection is left. -/
theorem tells_leaving (link : w.phase.link = .connected) (reason : ReadExit) :
    Tells (leaving h w reason) [(.connected, .disconnected)] [(0, -1)] := by
  have told : Tells (linkEvents w.phase.link .disconnected) [(.connected, .disconnected)] [] := by
    constructor <;> simp [linkEvents, link, changes, Event.change?, Event.tie?]
  have ended : Tells [.exited reason] [] [(0, -1)] := ⟨rfl, rfl⟩
  exact (told.after (aside_notices _)).append ended

theorem tells_leave (link : w.phase.link = .connected) (reason : ReadExit) :
    Tells (leave h w reason).events
      ((.connected, .disconnected) ::
        if reason = .busClosed then [(.disconnected, .stopped)] else []) [(0, -1)] := by
  have stopped : Tells (if reason = .busClosed then [.link .disconnected .stopped, .stopped] else [])
      (if reason = .busClosed then [(.disconnected, .stopped)] else []) [] := by
    by_cases closed : reason = .busClosed
    · rw [if_pos closed, if_pos closed]
      exact ⟨rfl, rfl⟩
    · rw [if_neg closed, if_neg closed]
      exact ⟨rfl, rfl⟩
  rw [events_leave]
  exact (tells_leaving link reason).append stopped

/-- Every step tells what it does. -/
theorem accords_of_transition (step : Transition h w s) : Accords w s := by
  cases outline_of_transition step with
  | stops link stopping =>
    rcases link with link | link
    · have tells : Tells (stop h w).events [(.disconnected, .stopped)] [] := by
        constructor <;> simp [stop, linkEvents, link, changes, Event.change?, Event.tie?]
      refine .of_none tells ?_ ?_ <;> rw [link]
      · exact .single .stops
      · rfl
    · have tells : Tells (stop h w).events [(.dialing, .stopped)] [(-1, 0)] := by
        constructor <;> simp [stop, linkEvents, link, changes, Event.change?, Event.tie?]
      refine .of_one tells ?_ ?_ <;> rw [link]
      · exact .single .givesUp
      · rfl
  | dials phase going =>
    have link : (begin h w).worker.phase.link = .dialing := by
      simp only [begin, going, Bool.false_eq_true, if_false]
      cases (h.network.dial w.key.addr).1 <;> rfl
    refine .of_one (tells_begin phase going) ?_ ?_ <;> rw [link, phase]
    · exact .single .dials
    · rfl
  | @refused due e phase going passed =>
    refine .of_one (tells_failDial (by rw [phase]; rfl) e) ?_ ?_ <;> rw [phase]
    · exact .single .fails
    · rfl
  | @connects due peer tuning phase going passed =>
    have link : (connect h w peer tuning).worker.phase.link = .connected := by
      rw [phase_connect]
      rfl
    refine .of_one (tells_connect (by rw [phase]; rfl) peer tuning) ?_ ?_ <;>
      rw [worker_after, link, phase]
    · exact .single .connects
    · rfl
  | retries phase going passed =>
    refine .of_none ⟨rfl, rfl⟩ ?_ ?_ <;> rw [phase]
    · exact .refl _
    · rfl
  | @dialBreaks due reason phase going passed =>
    have tells : Tells (crash h w reason).events [] [] := .aside (aside_notices _)
    refine .of_crash (-1, 0) (tells.cons rfl rfl) (by simp [crash, Phase.crash?]) ?_
    rw [phase]
    rfl
  | @readBreaks reason link =>
    have tells : Tells (crash h w reason).events [] [] := .aside (aside_notices _)
    refine .of_crash (0, -1) (tells.cons rfl rfl) (by simp [crash, Phase.crash?]) ?_
    rw [link]
    rfl
  | leaves bus reason first link passing unheard =>
    refine .of_one ((tells_leave link reason).after fun e mem => aside_of_passing (passing e mem))
      ?_ ?_ <;> rw [worker_afterAll, phase_leave, link]
    · refine .change .ends ?_
      split
      · exact .single .stops
      · exact .refl _
    · split <;> rfl
  | goesOn link still passing =>
    refine .of_none (.aside fun e mem => aside_of_passing (passing e mem)) ?_ ?_ <;>
      rw [link, still]
    exact .refl _

/-- The link of a worker is stopped only when the worker is told to stop, or when nobody receives
what it has to deliver; then the last that is told before is that the connection was left. -/
theorem halts_of_events {source : LinkState} {pre post : List Event} (step : Transition h w s)
    (events : s.events = pre ++ .link source .stopped :: post) :
    h.stopping = true ∨ h.bus.receiving = false ∧ (∃ m, .undelivered m .closed ∈ pre) ∧
      ∃ before, pre = before ++ [.exited .busClosed] := by
  have told : (source, .stopped) ∈ changes s.events :=
    List.mem_filterMap.2 ⟨.link source .stopped, by simp [events], rfl⟩
  have other : ∀ {es : List Event} {links turns} {p : Prop}, Tells es links turns →
      (source, .stopped) ∈ changes es → (source, .stopped) ∉ links → p :=
    fun tells mem none => absurd (tells.links ▸ mem) none
  cases outline_of_transition step with
  | stops link stopping => exact .inl stopping
  | dials phase going => exact other (tells_begin phase going) told (by simp)
  | @refused due e phase going passed =>
    exact other (tells_failDial (by rw [phase]; rfl) e) told (by simp)
  | @connects due peer tuning phase going passed =>
    exact other (tells_connect (by rw [phase]; rfl) peer tuning) told (by simp)
  | retries phase going passed => cases told
  | @dialBreaks due reason phase going passed =>
    have tells : Tells (crash h w reason).events [] [] := .aside (aside_notices _)
    exact other (tells.cons rfl rfl) told (by simp)
  | @readBreaks reason link =>
    have tells : Tells (crash h w reason).events [] [] := .aside (aside_notices _)
    exact other (tells.cons rfl rfl) told (by simp)
  | leaves bus reason first link passing unheard =>
    by_cases closed : reason = .busClosed
    · obtain ⟨nobody, m, mem⟩ := unheard closed
      rw [events_afterAll, events_leave, if_pos closed, ← List.append_assoc] at events
      rcases mem_or_mem_of_append events with ⟨rest, rfl, last⟩ | ⟨rest, before, -⟩
      · -- the change at the end of the step is the only one to a stopped link
        cases rest with
        | nil =>
          rw [List.append_nil, leaving, ← List.append_assoc, closed]
          exact .inr ⟨nobody, ⟨m, by simp [mem]⟩, _, rfl⟩
        | cons change rest =>
          obtain ⟨-, tail⟩ := List.cons.inj last
          rcases List.append_eq_singleton_iff.1 tail.symm with ⟨-, same⟩ | ⟨-, same⟩ <;> cases same
      · have tells := (tells_leaving (h := { h with bus }) link reason).after
          fun e mem => aside_of_passing (passing e mem)
        refine other tells ?_ (by simp)
        exact List.mem_filterMap.2 ⟨.link source .stopped, by simp [before], rfl⟩
    · have tells := (tells_leave (h := { h with bus }) link reason).after
        fun e mem => aside_of_passing (passing e mem)
      exact other tells told (by simp [closed])
  | goesOn link still passing =>
    exact other (.aside fun e mem => aside_of_passing (passing e mem)) told (by simp)

/-! ## The log -/

/-- The changes of the link that a log tells, the earliest first. -/
def linksOf (log : List (Instant × Event)) : List (LinkState × LinkState) :=
  changes (log.reverse.map Prod.snd)

/-- There is at most one dial or connection, and not both. -/
def Apart (ties : Int × Int) : Prop := 0 ≤ ties.1 ∧ 0 ≤ ties.2 ∧ ties.1 + ties.2 ≤ 1

theorem apart_tiesOf (link : LinkState) : Apart (tiesOf link) := by
  cases link <;> simp [Apart, tiesOf]

theorem linksOf_logged (t : Instant) (es : List Event) (log : List (Instant × Event)) :
    linksOf (logged t es ++ log) = linksOf log ++ changes es := by
  simp [linksOf, logged, changes, Function.comp_def]

theorem linksOf_split (later earlier : List (Instant × Event)) (entry : Instant × Event) :
    linksOf (later ++ entry :: earlier) = linksOf earlier ++ (changes [entry.2] ++ linksOf later) := by
  simp only [linksOf, List.reverse_append, List.reverse_cons, List.map_append, changes,
    List.filterMap_append, List.append_assoc, List.map_cons, List.map_nil]

/-- Every change that a log tells stands in it. -/
theorem exists_split_of_mem_linksOf {source target : LinkState}
    (mem : (source, target) ∈ linksOf log) :
    ∃ later t earlier, log = later ++ (t, .link source target) :: earlier := by
  obtain ⟨e, told, change⟩ := List.mem_filterMap.1 mem
  obtain ⟨⟨t, e⟩, stands, rfl⟩ := List.mem_map.1 told
  obtain ⟨later, earlier, rfl⟩ : ∃ later earlier, log = later ++ (t, e) :: earlier :=
    List.append_of_mem (List.mem_reverse.1 stands)
  cases e with
  | link source' target' =>
    cases change
    exact ⟨later, t, earlier, rfl⟩
  | _ => cases change

theorem turns_logged (t : Instant) (es : List Event) :
    (logged t es).filterMap (fun x => x.2.tie?) = (es.filterMap Event.tie?).reverse := by
  simp [logged, List.filterMap_map]

theorem ties_append (xs ys : List (Instant × Event)) : ties (xs ++ ys) = ties xs + ties ys := by
  simp [ties]

/-- What stands at the end of two lists is at the end of the second one, or it is all of that after
an end of the first one. -/
theorem suffix_append_iff {α : Type} {xs ys zs : List α} :
    zs <:+ xs ++ ys ↔ zs <:+ ys ∨ ∃ rest, rest <:+ xs ∧ zs = rest ++ ys := by
  induction xs with
  | nil =>
    refine ⟨.inl, ?_⟩
    rintro (suffix | ⟨rest, suffix, rfl⟩)
    · exact suffix
    · obtain rfl := List.suffix_nil.1 suffix
      exact List.suffix_refl _
  | cons x xs ih =>
    rw [List.cons_append, List.suffix_cons_iff, ih]
    constructor
    · rintro (rfl | suffix | ⟨rest, suffix, rfl⟩)
      · exact .inr ⟨x :: xs, List.suffix_refl _, rfl⟩
      · exact .inl suffix
      · exact .inr ⟨rest, suffix.trans (List.suffix_cons x xs), rfl⟩
    · rintro (suffix | ⟨rest, suffix, rfl⟩)
      · exact .inr (.inl suffix)
      · rcases List.suffix_cons_iff.1 suffix with rfl | suffix
        · exact .inl rfl
        · exact .inr (.inr ⟨rest, suffix, rfl⟩)

/-- What a worker does agrees with its log, which tells a chain of changes of its link, and never
more than one dial or connection. -/
structure Linked (w : Worker) (log : List (Instant × Event)) : Prop where
  links : ∃ last, LinkState.Chain .disconnected (linksOf log) last ∧
    (w.phase.crash? = none → last = w.phase.link)
  ties : ties log = tiesOf w.phase.link
  apart : ∀ earlier, earlier <:+ log → Apart (Worker.ties earlier)

theorem linked_new (key : SourceKey) : Linked { key } [] where
  links := ⟨_, .refl _, fun _ => rfl⟩
  ties := rfl
  apart earlier suffix := by
    rw [List.suffix_nil.1 suffix]
    exact apart_tiesOf .disconnected

/-- A step keeps what a worker does in agreement with its log. -/
theorem Linked.transition (linked : Linked w log) (step : Transition h w s) :
    Linked s.worker (logged t s.events ++ log) := by
  have accords := accords_of_transition step
  obtain ⟨first, chain, whole⟩ := linked.links
  obtain ⟨last, more, whole'⟩ := accords.links
  obtain rfl : first = w.phase.link := whole (crash?_of_link (going_of_transition step))
  refine ⟨⟨last, ?_, whole'⟩, ?_, ?_⟩
  · rw [linksOf_logged]
    exact chain.trans more
  · rw [ties_append, linked.ties, Worker.ties, turns_logged]
    rcases accords.turns with ⟨none, same⟩ | ⟨turn, one, changed⟩
    · simp [none, same]
    · simp [one, changed, add_comm]
  · intro earlier suffix
    rcases suffix_append_iff.1 suffix with old | ⟨rest, part, rfl⟩
    · exact linked.apart earlier old
    · -- the dial or connection that begins or ends in the step may be told already or not
      have told : rest.filterMap (fun x => x.2.tie?) <:+ (s.events.filterMap Event.tie?).reverse := by
        rw [← turns_logged t]
        exact part.filterMap _
      rw [ties_append, linked.ties, Worker.ties]
      rcases accords.turns with ⟨none, -⟩ | ⟨turn, one, changed⟩
      · rw [none, List.reverse_nil, List.suffix_nil] at told
        rw [told, List.sum_nil, zero_add]
        exact apart_tiesOf _
      · rw [one, List.reverse_singleton, List.suffix_cons_iff, List.suffix_nil] at told
        rcases told with told | told
        · rw [told, List.sum_singleton, add_comm, ← changed]
          exact apart_tiesOf _
        · rw [told, List.sum_nil, zero_add]
          exact apart_tiesOf _

end Worker

end FeedCapture
