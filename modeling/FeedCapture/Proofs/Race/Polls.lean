import FeedCapture.Proofs.Race.Lock
import Mathlib.Data.List.Forall2

/-!
# Calls without races

A supervisor whose calls of start run in one go, and whose calls of stop go on until they wait, does
nothing but what racing calls can do: each such act is a number of sections in order.  So whatever
holds however the calls race holds of it.

## Main definitions

* `Race.Reaches` — one can come from one state to another without receiving
* `Race.Matches`, `Race.Mirrors` — the calls have got equally far

The main statement is `Race.exists_run?_of_run?`.
-/

namespace FeedCapture.Race

open Entries

variable {r t u : Race} {a : Act} {acts : List Act}

/-! ## Runs -/

/-- Where no message is received none is seen. -/
theorem received_eq_nil (quiet : ∀ a ∈ acts, a ≠ .receive) : r.received acts = [] := by
  induction acts generalizing r with
  | nil => rfl
  | cons a acts ih =>
    have none : r.takes a = [] := by
      cases a with
      | receive => exact absurd rfl (quiet _ (List.mem_cons_self ..))
      | _ => rfl
    rw [received, trace, none, List.nil_append]
    split
    · exact ih fun b hb => quiet b (List.mem_cons_of_mem a hb)
    · rfl

/-- One can come from one state to another without receiving. -/
def Reaches (r t : Race) : Prop := ∃ acts, (∀ a ∈ acts, a ≠ .receive) ∧ r.run? acts = some t

theorem Reaches.refl (r : Race) : r.Reaches r := ⟨[], by simp, rfl⟩

theorem Reaches.head (quiet : a ≠ .receive) (first : r.act? a = some t) (rest : t.Reaches u) :
    r.Reaches u := by
  obtain ⟨acts, others, ran⟩ := rest
  exact ⟨a :: acts, by simp [quiet]; exact others, by rw [run?_cons first, ran]⟩

theorem Reaches.of_act? (quiet : a ≠ .receive) (act : r.act? a = some t) : r.Reaches t :=
  .head quiet act (.refl t)

/-! ## The sections of a call in order -/

variable {n : Nat}

theorem goStop_eq {call next : Stopping} {s : Supervisor} (made : r.stops[n]? = some call)
    (free : r.locked = false) (goes : call.next? r.supervisor = some (s, next)) :
    r.act? (.goStop n) = some { r with supervisor := s, stops := r.stops.set n next } := by
  simp [act?, made, free, goes]

theorem goStart_eq {call next : Starting} {s : Supervisor} (made : r.starts[n]? = some call)
    (free : call = .fresh → r.locked = false)
    (goes : call.next? r.supervisor = some (s, next)) :
    r.act? (.goStart n) = some { r with supervisor := s, starts := r.starts.set n next } := by
  have unlocked : ¬(call = .fresh ∧ r.locked = true) := by
    rintro ⟨fresh, locked⟩
    rw [free fresh] at locked
    cases locked
  simp [act?, made, unlocked, goes]

theorem giveUp_eq {call next : Stopping} {s : Supervisor} (made : r.stops[n]? = some call)
    (drops : call.giveUp? r.supervisor = some (s, next)) :
    r.act? (.giveUp n) = some { r with supervisor := s, stops := r.stops.set n next } := by
  simp [act?, made, drops]

/-- A call that does nothing. -/
theorem Reaches.stay {call : Stopping} (made : r.stops[n]? = some call) :
    r.Reaches { r with stops := r.stops.set n call } := by
  obtain ⟨there, rfl⟩ := List.getElem?_eq_some_iff.1 made
  rw [List.set_getElem_self there]
  exact .refl r

/-- How far a racing call of stop has got where another one waits, is over or was given up. -/
inductive Matches : StopCall → Stopping → Prop where
  | fresh : Matches .fresh .fresh
  | joining (first : Bool) (joined slot : Nat) :
      Matches (.joining first joined slot) (.joining first joined slot)
  | finished : Matches .finished .finished
  | unused : Matches .finished .unused

theorem noteJoin_withUnjoined (s : Supervisor) (unjoined : List Nat) (slot : Nat) :
    Supervisor.noteJoin { s with unjoined } slot = { s.noteJoin slot with unjoined } := by
  unfold Supervisor.noteJoin
  have same : Supervisor.crashOf { s with unjoined } slot = s.crashOf slot := rfl
  rw [same]
  split <;> rfl

/-- A call of stop goes on. -/
theorem Reaches.goStop {call last : Stopping} {s s' : Supervisor} (next : Stopping)
    (made : r.stops[n]? = some call) (free : r.locked = false)
    (goes : call.next? r.supervisor = some (s, next))
    (rest : ({ r with supervisor := s, stops := r.stops.set n next } : Race).Reaches
      { r with supervisor := s', stops := (r.stops.set n next).set n last }) :
    r.Reaches { r with supervisor := s', stops := r.stops.set n last } := by
  rw [List.set_set] at rest
  exact .head (by simp) (goStop_eq made free goes) rest

/-- Joining workers until one has not ended or none is left is a number of sections. -/
theorem reaches_joinWorkers {first : Bool} {joined : Nat} {s : Supervisor} (slots : List Nat)
    (free : r.locked = false) (made : r.stops[n]? = some (.seeking first joined))
    (same : r.supervisor = { s with unjoined := slots.reverse }) :
    ∃ call, Matches (Supervisor.joinWorkers first joined slots s).2 call ∧
      r.Reaches { r with
        supervisor := (Supervisor.joinWorkers first joined slots s).1
        stops := r.stops.set n call } := by
  induction slots generalizing r s joined with
  | nil =>
    -- nobody is left to join: the call notices that, and closes the bus
    refine ⟨.finished, .finished, .goStop (.emptied first joined) made free
      (by simp [Stopping.next?, same]; rfl) (.of_act? (a := .goStop n) (by simp) ?_)⟩
    exact goStop_eq (getElem?_set_of_some made _) free rfl
  | cons slot rest ih =>
    have found : Stopping.next? r.supervisor (.seeking first joined) =
        some ({ s with unjoined := rest.reverse }, .joining first joined slot) := by
      simp [Stopping.next?, same]
    unfold Supervisor.joinWorkers
    split
    · next ended =>
      -- the worker has ended: the call looks for the next one
      let r₁ : Race := { r with
        supervisor := { s.noteJoin slot with unjoined := rest.reverse }
        stops := r.stops.set n (.seeking first (joined + 1)) }
      have here : r₁.stops[n]? = some (.seeking first (joined + 1)) := getElem?_set_of_some made _
      obtain ⟨call, got, reached⟩ := ih (r := r₁) (s := s.noteJoin slot) free here rfl
      refine ⟨call, got, .goStop _ made free found (.goStop (.seeking first (joined + 1))
        (getElem?_set_of_some made _) free
        (s := { s.noteJoin slot with unjoined := rest.reverse }) ?_ ?_)⟩
      · show (if s.hasEnded slot = true then _ else none) = _
        rw [if_pos ended, noteJoin_withUnjoined]
      · simpa only [r₁, List.set_set] using reached
    · exact ⟨_, .joining first joined slot,
        .of_act? (a := .goStop n) (by simp) (goStop_eq made free found)⟩

/-- A call of start goes on. -/
theorem Reaches.goStart {call last : Starting} {s s' : Supervisor} (next : Starting)
    (made : r.starts[n]? = some call) (free : call = .fresh → r.locked = false)
    (goes : call.next? r.supervisor = some (s, next))
    (rest : ({ r with supervisor := s, starts := r.starts.set n next } : Race).Reaches
      { r with supervisor := s', starts := (r.starts.set n next).set n last }) :
    r.Reaches { r with supervisor := s', starts := r.starts.set n last } := by
  rw [List.set_set] at rest
  exact .head (by simp) (goStart_eq made free goes) rest

/-- A supervisor to which the workers for some sources were added, the first one in a slot. -/
def enlisted (s : Supervisor) (slot : Nat) (addrs : List String) : Supervisor :=
  { s with
    fleet := { s.fleet with
      workers := s.fleet.workers ++ addrs.mapIdx fun i addr => { key := ⟨slot + i, addr⟩ } }
    unjoined := s.unjoined ++ (List.range addrs.length).map (slot + ·) }

/-- The sources are gone through one by one, and then the lock is let go. -/
theorem reaches_spawning {slot : Nat} {addrs : List String}
    (made : r.starts[n]? = some (.spawning slot))
    (left : r.supervisor.sources.drop slot = addrs) :
    r.Reaches { r with
      supervisor := Supervisor.note
        { enlisted r.supervisor slot addrs with
          fleet := { (enlisted r.supervisor slot addrs).fleet with spareSender := false } }
        (.started r.supervisor.sources.length)
      starts := r.starts.set n .returned } := by
  induction addrs generalizing r slot with
  | nil =>
    have done : r.supervisor.sources[slot]? = none :=
      List.getElem?_eq_none_iff.2 (List.drop_eq_nil_iff.1 left)
    refine .of_act? (a := .goStart n) (by simp) (goStart_eq made (by simp) ?_)
    simp [Starting.next?, done, enlisted]
  | cons addr rest ih =>
    have source : r.supervisor.sources[slot]? = some addr := by
      have head := congrArg List.head? left
      simpa using head
    have others : r.supervisor.sources.drop (slot + 1) = rest := by
      rw [← List.drop_drop, left, List.drop_one, List.tail_cons]
    let s : Supervisor := { r.supervisor with
      fleet := r.fleet.spawnNext slot addr, unjoined := r.supervisor.unjoined ++ [slot] }
    let r₁ : Race := { r with supervisor := s, starts := r.starts.set n (.spawning (slot + 1)) }
    have here : r₁.starts[n]? = some (.spawning (slot + 1)) := getElem?_set_of_some made _
    refine .goStart (.spawning (slot + 1)) made (by simp) (s := s) ?_ ?_
    · simp [Starting.next?, source, s]
    · have reached := ih (r := r₁) here others
      have same : enlisted s (slot + 1) rest = enlisted r.supervisor slot (addr :: rest) := by
        simp [enlisted, s, Fleet.spawnNext, List.mapIdx_cons, List.range_succ_eq_map,
          Function.comp_def, Nat.add_assoc, Nat.add_comm 1]
      simpa only [r₁, same] using reached

/-- A call of start that holds the lock goes on to its end, if nobody was started before. -/
theorem reaches_entered (made : r.starts[n]? = some .entered) (none : r.fleet.workers = [])
    (nobody : r.supervisor.unjoined = []) :
    r.Reaches { r with
      supervisor :=
        if !r.fleet.hub.bus.ownSender then r.supervisor.note .cannotStart
        else
          Supervisor.note
            { r.supervisor with
              fleet := r.fleet.spawn r.supervisor.sources
              unjoined := List.range r.supervisor.sources.length }
            (.started r.supervisor.sources.length)
      starts := r.starts.set n .returned } := by
  split
  · next closed =>
    exact .of_act? (a := .goStart n) (by simp)
      (goStart_eq made (by simp) (by simp only [Starting.next?, closed, if_true]))
  · next own =>
    let s : Supervisor := { r.supervisor with fleet := { r.fleet with spareSender := true } }
    let r₁ : Race := { r with supervisor := s, starts := r.starts.set n (.spawning 0) }
    have here : r₁.starts[n]? = some (.spawning 0) := getElem?_set_of_some made _
    refine .goStart (.spawning 0) made (by simp) (s := s) ?_ ?_
    · simp only [Starting.next?, own, s]
      rfl
    · have reached := reaches_spawning here (List.drop_zero ..)
      simpa [enlisted, r₁, s, Fleet.spawn, none, nobody] using reached

/-- A call of start that runs in one go is a number of sections. -/
theorem reaches_start (free : Starting.Free r.starts)
    (idle : r.supervisor.started = false → r.fleet.workers = [])
    (unjoined : r.supervisor.stopped = false →
      r.supervisor.unjoined = List.range r.fleet.workers.length) :
    r.Reaches { r with supervisor := r.supervisor.start, starts := r.starts ++ [.returned] } := by
  let r₁ : Race := { r with starts := r.starts ++ [.fresh] }
  have made : r₁.starts[r.starts.length]? = some .fresh := by simp [r₁]
  have unlocked : r₁.locked = false := locked_eq_false_iff.2 free.append
  have last : r.starts ++ [.returned] = r₁.starts.set r.starts.length .returned := by simp [r₁]
  refine .head (t := r₁) (a := .start) (by simp) rfl ?_
  rw [last]
  unfold Supervisor.start
  split
  · next stopped =>
    exact .of_act? (a := .goStart r.starts.length) (by simp)
      (goStart_eq made (fun _ => unlocked) (by simp [Starting.next?, r₁, stopped]))
  · next unstopped =>
    split
    · next started =>
      exact .of_act? (a := .goStart r.starts.length) (by simp)
        (goStart_eq made (fun _ => unlocked) (by simp [Starting.next?, r₁, unstopped, started]))
    · next unstarted =>
      have none : r.fleet.workers = [] := idle (by simpa using unstarted)
      have nobody : r.supervisor.unjoined = [] := by
        rw [unjoined (by simpa using unstopped), none]
        rfl
      let s : Supervisor := { r.supervisor with started := true }
      let r₂ : Race := { r₁ with
        supervisor := s, starts := r₁.starts.set r.starts.length .entered }
      have here : r₂.starts[r.starts.length]? = some .entered := getElem?_set_of_some made _
      exact .goStart .entered made (fun _ => unlocked)
        (by simp [Starting.next?, r₁, unstopped, unstarted])
        (reaches_entered here none nobody)

/-- A call of stop that goes on until it waits or is over does a number of sections. -/
theorem reaches_pollStop {call : Stopping} {poll : StopCall} (free : r.locked = false)
    (made : r.stops[n]? = some call) (alike : Matches poll call) :
    ∃ next, Matches (r.supervisor.pollStop poll).2 next ∧
      r.Reaches { r with
        supervisor := (r.supervisor.pollStop poll).1
        stops := r.stops.set n next } := by
  cases alike with
  | fresh =>
    simp only [Supervisor.pollStop]
    cases stopped : r.supervisor.stopped with
    | true =>
      -- another call was the first
      let r₁ : Race := { r with stops := r.stops.set n (.seeking false 0) }
      have here : r₁.stops[n]? = some (.seeking false 0) := getElem?_set_of_some made _
      obtain ⟨next, alike, reached⟩ := reaches_joinWorkers (r := r₁) (s := r.supervisor)
        r.supervisor.unjoined.reverse free here (by simp [r₁])
      refine ⟨next, alike, .goStop (.seeking false 0) made free (s := r.supervisor) ?_ reached⟩
      simp [Stopping.next?, stopped]
    | false =>
      -- the call sets the flag, cancels the token and has the connections closed
      let s : Supervisor := r.supervisor.signal
      let r₁ : Race := { r with
        supervisor := s
        stops := ((r.stops.set n .flagged).set n .cancelled).set n (.seeking true 0) }
      have flagged := getElem?_set_of_some made Stopping.flagged
      have cancelled := getElem?_set_of_some flagged Stopping.cancelled
      have here : r₁.stops[n]? = some (.seeking true 0) := getElem?_set_of_some cancelled _
      obtain ⟨next, alike, reached⟩ := reaches_joinWorkers (r := r₁) (s := s)
        s.unjoined.reverse free here (by simp [r₁])
      refine ⟨next, alike, .goStop .flagged made free
        (s := { r.supervisor with stopped := true }) (by simp [Stopping.next?, stopped])
        (.goStop .cancelled flagged free rfl
          (.goStop (.seeking true 0) cancelled free rfl reached))⟩
  | joining first joined slot =>
    simp only [Supervisor.pollStop]
    split
    · next ended =>
      let s : Supervisor := r.supervisor.noteJoin slot
      let r₁ : Race := { r with
        supervisor := s, stops := r.stops.set n (.seeking first (joined + 1)) }
      have here : r₁.stops[n]? = some (.seeking first (joined + 1)) := getElem?_set_of_some made _
      obtain ⟨next, alike, reached⟩ := reaches_joinWorkers (r := r₁) (s := s)
        s.unjoined.reverse free here (by simp [r₁])
      refine ⟨next, alike, .goStop (.seeking first (joined + 1)) made free (s := s) ?_ reached⟩
      simp [Stopping.next?, ended, s]
    · exact ⟨_, .joining first joined slot, Reaches.stay made⟩
  | finished => exact ⟨_, .finished, Reaches.stay made⟩
  | unused => exact ⟨_, .unused, Reaches.stay made⟩

/-- Giving a call of stop up is what it is to a racing one. -/
theorem reaches_dropStop {call : Stopping} {poll : StopCall} (made : r.stops[n]? = some call)
    (alike : Matches poll call) :
    ∃ next, Matches .finished next ∧
      r.Reaches { r with
        supervisor := r.supervisor.dropStop poll
        stops := r.stops.set n next } := by
  cases alike with
  | fresh => exact ⟨_, .unused, .of_act? (a := .giveUp n) (by simp) (giveUp_eq made rfl)⟩
  | joining first joined slot =>
    exact ⟨_, .finished, .of_act? (a := .giveUp n) (by simp) (giveUp_eq made rfl)⟩
  | finished => exact ⟨_, .finished, .stay made⟩
  | unused => exact ⟨_, .unused, .stay made⟩

/-! ## Runs without races -/

/-- The same supervisor, with calls of stop that have got equally far; no call of start is under
way. -/
structure Mirrors (s : Supervision) (r : Race) : Prop where
  supervisor : r.supervisor = s.supervisor
  starts : ∀ call ∈ r.starts, call = .returned
  stops : List.Forall₂ Matches s.calls r.stops

/-- What stands in one of two lists that agree stands in the other one as well. -/
theorem exists_getElem?_of_forall₂ {α β : Type} {R : α → β → Prop} {l : List α} {l' : List β}
    {x : α} (h : List.Forall₂ R l l') (there : l[n]? = some x) : ∃ y, l'[n]? = some y ∧ R x y := by
  induction h generalizing n with
  | nil => cases there
  | cons alike _ ih =>
    cases n with
    | zero =>
      cases there
      exact ⟨_, rfl, alike⟩
    | succ n => exact ih there

/-- Two lists that agree still do when entries that agree replace others. -/
theorem forall₂_set {α β : Type} {R : α → β → Prop} {l : List α} {l' : List β} {x : α} {y : β}
    (h : List.Forall₂ R l l') (n : Nat) (alike : R x y) :
    List.Forall₂ R (l.set n x) (l'.set n y) := by
  induction h generalizing n with
  | nil => exact .nil
  | cons first rest ih =>
    cases n with
    | zero => exact .cons alike rest
    | succ n => exact .cons first (ih n)

namespace Mirrors

variable {s s' : Supervision}

theorem free (h : Mirrors s r) : Starting.Free r.starts := fun call mem => by
  rw [h.starts call mem]
  rfl

/-- What the workers, the receiver and the clock do is the same. -/
theorem actOfFleet? {own : Fleet.Act} (h : Mirrors s r)
    (hs : s.actOfFleet? own = some s') :
    ∃ t, r.actOfFleet? own = some t ∧ Mirrors s' t := by
  obtain ⟨fleet, act, rfl⟩ := Option.map_eq_some_iff.1 hs
  rw [← h.supervisor] at act ⊢
  exact ⟨_, Option.map_eq_some_iff.2 ⟨fleet, act, rfl⟩, rfl, h.starts, h.stops⟩

/-- Whatever happens without races can happen where calls race. -/
theorem act {a : Supervision.Act} (h : Mirrors s r) (tended : s.Tended)
    (hs : s.act? a = some s') :
    ∃ acts t, r.run? acts = some t ∧ r.received acts = s.takes a ∧ Mirrors s' t := by
  -- all but receiving is a number of acts that receive nothing
  have silent : ∀ {t : Race}, r.Reaches t → Mirrors s' t → s.takes a = [] →
      ∃ acts t, r.run? acts = some t ∧ r.received acts = s.takes a ∧ Mirrors s' t := by
    rintro t ⟨acts, quiet, ran⟩ mirrors none
    exact ⟨acts, t, ran, (received_eq_nil quiet).trans none.symm, mirrors⟩
  have unlocked := locked_eq_false_iff.2 h.free
  cases a with
  | start =>
    cases hs
    refine silent (reaches_start h.free ?_ ?_) ⟨?_, ?_, h.stops⟩ rfl
    · rw [fleet, h.supervisor]; exact tended.idle
    · rw [fleet, h.supervisor]; exact tended.unjoined
    · exact congrArg Supervisor.start h.supervisor
    · intro call mem
      rcases List.mem_append.1 mem with mem | mem
      · exact h.starts call mem
      · exact List.mem_singleton.1 mem
  | call =>
    cases hs
    exact silent (.of_act? (a := .stop) (by simp) rfl)
      ⟨h.supervisor, h.starts, List.rel_append h.stops (.cons .fresh .nil)⟩ rfl
  | poll n =>
    obtain ⟨poll, made, rfl⟩ := Option.map_eq_some_iff.1 hs
    obtain ⟨call, here, alike⟩ := exists_getElem?_of_forall₂ h.stops made
    obtain ⟨next, same, reached⟩ := reaches_pollStop unlocked here alike
    rw [h.supervisor] at same reached
    exact silent reached ⟨rfl, h.starts, forall₂_set h.stops n same⟩ rfl
  | giveUp n =>
    obtain ⟨poll, made, rfl⟩ := Option.map_eq_some_iff.1 hs
    obtain ⟨call, here, alike⟩ := exists_getElem?_of_forall₂ h.stops made
    obtain ⟨next, same, reached⟩ := reaches_dropStop here alike
    rw [h.supervisor] at reached
    exact silent reached ⟨rfl, h.starts, forall₂_set h.stops n same⟩ rfl
  | step slot =>
    obtain ⟨t, act, mirrors⟩ := h.actOfFleet? hs
    exact silent (.of_act? (a := .step slot) (by simp) act) mirrors rfl
  | receive =>
    obtain ⟨t, act, mirrors⟩ := h.actOfFleet? hs
    refine ⟨[.receive], t, run?_singleton act, ?_, mirrors⟩
    have same : r.fleet = s.supervisor.fleet := congrArg Supervisor.fleet h.supervisor
    rw [received, trace, takes, same, act?, act]
    exact List.append_nil _
  | pass time =>
    -- the clock may run ahead of the workers, so it may also wait for them
    have later : ∀ {f g : Fleet}, f.act? (.pass time) = some g → f.act? (.lag time) = some g := by
      intro f g h
      simp only [Fleet.act?, Fleet.canPass, Bool.and_eq_true, decide_eq_true_eq,
        Option.ite_none_right_eq_some] at h ⊢
      exact ⟨h.1.1.1, h.2⟩
    obtain ⟨fleet, act, rfl⟩ := Option.map_eq_some_iff.1 hs
    obtain ⟨t, act, mirrors⟩ := h.actOfFleet? (Option.map_eq_some_iff.2 ⟨fleet, later act, rfl⟩)
    exact silent (.of_act? (a := .pass time) (by simp) act) mirrors rfl

theorem run {acts : List Supervision.Act} (h : Mirrors s r) (tended : s.Tended)
    (ran : s.run? acts = some s') :
    ∃ acts' t, r.run? acts' = some t ∧ r.received acts' = s.received acts ∧ Mirrors s' t := by
  induction acts generalizing s r with
  | nil =>
    cases ran
    exact ⟨[], r, rfl, rfl, h⟩
  | cons a acts ih =>
    obtain ⟨s₁, one, rest⟩ := Option.bind_eq_some_iff.1 ran
    obtain ⟨xs, r₁, first, got, mirrors⟩ := h.act tended one
    obtain ⟨ys, t, more, gotMore, done⟩ := ih mirrors (tended.act one) rest
    refine ⟨xs ++ ys, t, (run?_append first).trans more, ?_, done⟩
    rw [received, trace_append takes first, Supervision.received, one]
    exact congrArg₂ (· ++ ·) got gotMore

end Mirrors

/-- **Calls that do not race are a case of calls that do.**  Whatever can happen to a supervisor
whose calls of start run in one go, and whose calls of stop go on until they wait, can happen where
the calls race: the supervisor gets into the same state, the calls of stop equally far, and the same
messages are received. -/
theorem exists_run?_of_run? {sources : List String} {policy : Policy} {network : Network}
    {counting : Bool} {supervisor : Supervisor} {acts : List Supervision.Act} {s : Supervision}
    (created : Supervisor.create sources policy network counting = .ok supervisor)
    (ran : Supervision.run? { supervisor } acts = some s) :
    ∃ (acts' : List Act) (r : Race), run? { supervisor } acts' = some r ∧
      received { supervisor } acts' = Supervision.received { supervisor } acts ∧ Mirrors s r :=
  Mirrors.run (r := { supervisor }) ⟨rfl, fun _ mem => (by cases mem), .nil⟩
    (Supervision.tended_create created) ran

end FeedCapture.Race
