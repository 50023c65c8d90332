import FeedCapture.Fleet.Run
import FeedCapture.Supervisor

/-!
# Calls that race for a supervisor

Calls of start and of stop that run at the same time, on any number of threads.  A call goes on one
section at a time: between two sections the others, the workers and the clock can do anything.  What
guards the workers' handles is a lock.  A call of start holds it from its first section to its last
one; a call of stop takes it to set the flag, and to take the next handle, and lets go of it at
once.

## Main definitions

* `Race.Starting`, `Race.Stopping` — how far a call has got
* `Race.Starting.next?`, `Race.Stopping.next?` — the next section of a call
* `Race.act?`, `Race.run?` — what can happen, and what comes of several acts in order
* `Race.waits` — nothing that has begun can go on
* `Race.received`, `Race.spawners`, `Race.taken`, `Race.forsaken` — what can be seen of a run
* `Race.Change` — the acts that are possible, with what they come to

The main statement says that what no act breaks holds after a run (`induction_of_run?`).
-/

namespace FeedCapture

/-- Adds the worker for the source in a slot. -/
def Fleet.spawnNext (f : Fleet) (slot : Nat) (addr : String) : Fleet :=
  { f with workers := f.workers ++ [{ key := ⟨slot, addr⟩ }] }

/-- How far a call of start has got. -/
inductive Race.Starting where
  /-- The call has not run yet. -/
  | fresh
  /-- The call holds the lock, and is the one that starts the workers. -/
  | entered
  /-- The call holds the lock and a sender for the workers; the source in a slot is next. -/
  | spawning (slot : Nat)
  | returned
deriving DecidableEq, Repr

/-- How far a call of stop has got. -/
inductive Race.Stopping where
  /-- The call has not run yet. -/
  | fresh
  /-- The call is the one that set the flag. -/
  | flagged
  /-- The call has cancelled the stop token. -/
  | cancelled
  /-- The call looks for the next worker to join. -/
  | seeking (first : Bool) (joined : Nat)
  /-- The call waits for the worker in a slot. -/
  | joining (first : Bool) (joined slot : Nat)
  /-- The call found nobody left to join. -/
  | emptied (first : Bool) (joined : Nat)
  /-- The call is over, or was given up while it waited. -/
  | finished
  /-- The call was given up before it ran. -/
  | unused
deriving DecidableEq, Repr

/-- A supervisor and the calls of start and of stop that were made, in the order of their making. -/
structure Race where
  supervisor : Supervisor
  starts : List Race.Starting := []
  stops : List Race.Stopping := []
deriving DecidableEq, Repr

namespace Race

/-! ## The sections of a call -/

/-- The call holds the lock. -/
def Starting.holds : Starting → Bool
  | .entered => true
  | .spawning _ => true
  | _ => false

/-- The next section of a call of start, where it gets the lock if it has to. -/
def Starting.next? (s : Supervisor) : Starting → Option (Supervisor × Starting)
  | .fresh =>
    if s.stopped then some (s.note .alreadyStopped, .returned)
    else if s.started then some (s.note .alreadyStarted, .returned)
    else some ({ s with started := true }, .entered)
  | .entered =>
    if !s.fleet.hub.bus.ownSender then some (s.note .cannotStart, .returned)
    else some ({ s with fleet := { s.fleet with spareSender := true } }, .spawning 0)
  | .spawning slot =>
    match s.sources[slot]? with
    | some addr =>
      some ({ s with fleet := s.fleet.spawnNext slot addr, unjoined := s.unjoined ++ [slot] },
        .spawning (slot + 1))
    | none =>
      some ({ s with fleet := { s.fleet with spareSender := false } }.note
        (.started s.sources.length), .returned)
  | .returned => none

/-- The call takes the lock for its next section. -/
def Stopping.locks : Stopping → Bool
  | .fresh => true
  | .seeking _ _ => true
  | _ => false

/-- The next section of a call of stop, where it gets the lock if it takes it.  There is none while
the call waits for a worker that has not ended. -/
def Stopping.next? (s : Supervisor) : Stopping → Option (Supervisor × Stopping)
  | .fresh =>
    if s.stopped then some (s, .seeking false 0) else some ({ s with stopped := true }, .flagged)
  | .flagged => some ({ s with fleet := s.fleet.stop }, .cancelled)
  | .cancelled =>
    let (fleet, connections) := s.fleet.closeAll
    some ({ s with fleet }.note (.forceClosed connections), .seeking true 0)
  | .seeking first joined =>
    match s.unjoined.getLast? with
    | some slot => some ({ s with unjoined := s.unjoined.dropLast }, .joining first joined slot)
    | none => some (s, .emptied first joined)
  | .joining first joined slot =>
    if s.hasEnded slot then some (s.noteJoin slot, .seeking first (joined + 1)) else none
  | .emptied first joined => some ((s.finishStop first joined).1, .finished)
  | .finished => none
  | .unused => none

/-- What comes of giving a call of stop up: it has not run yet, or it waits for a worker. -/
def Stopping.giveUp? (s : Supervisor) : Stopping → Option (Supervisor × Stopping)
  | .fresh => some (s, .unused)
  | .joining _ _ _ => some ({ s with fleet := s.fleet.closeBus.1 }, .finished)
  | _ => none

/-! ## Acts -/

/-- Something that can happen. -/
inductive Act where
  /-- A call of start is made. -/
  | start
  /-- A call of stop is made. -/
  | stop
  /-- A call of start does its next section. -/
  | goStart (call : Nat)
  /-- A call of stop does its next section. -/
  | goStop (call : Nat)
  /-- A call of stop is given up. -/
  | giveUp (call : Nat)
  /-- The worker in a slot takes a step. -/
  | step (slot : Nat)
  /-- The oldest message is received. -/
  | receive
  /-- The clock moves on to an instant, whoever could go on. -/
  | pass (t : Instant)
deriving DecidableEq, Repr

/-- All workers. -/
abbrev fleet (r : Race) : Fleet := r.supervisor.fleet

/-- Some call of start holds the lock. -/
def locked (r : Race) : Bool := r.starts.any (·.holds)

/-- What comes of an act of the workers, the receiver or the clock. -/
def actOfFleet? (r : Race) (a : Fleet.Act) : Option Race :=
  (r.fleet.act? a).map fun fleet => { r with supervisor := { r.supervisor with fleet } }

/-- What comes of an act, if the act is possible. -/
def act? (r : Race) : Act → Option Race
  | .start => some { r with starts := r.starts ++ [.fresh] }
  | .stop => some { r with stops := r.stops ++ [.fresh] }
  | .goStart n =>
    r.starts[n]?.bind fun call =>
      if call = .fresh ∧ r.locked = true then none
      else (call.next? r.supervisor).map fun (supervisor, call) =>
        { r with supervisor, starts := r.starts.set n call }
  | .goStop n =>
    r.stops[n]?.bind fun call =>
      if call.locks = true ∧ r.locked = true then none
      else (call.next? r.supervisor).map fun (supervisor, call) =>
        { r with supervisor, stops := r.stops.set n call }
  | .giveUp n =>
    r.stops[n]?.bind fun call =>
      (call.giveUp? r.supervisor).map fun (supervisor, call) =>
        { r with supervisor, stops := r.stops.set n call }
  | .step slot => r.actOfFleet? (.step slot)
  | .receive => r.actOfFleet? .receive
  | .pass t => r.actOfFleet? (.lag t)

/-- What comes of acts in order, if all of them are possible. -/
def run? (r : Race) : List Act → Option Race
  | [] => some r
  | a :: rest => (r.act? a).bind fun r => r.run? rest

/-- Nothing that has begun can go on: no call that has run, and no worker. -/
def waits (r : Race) : Bool :=
  ((List.range r.starts.length).all fun n =>
    r.starts[n]? = some .fresh || (r.act? (.goStart n)).isNone) &&
  ((List.range r.stops.length).all fun n =>
    r.stops[n]? = some .fresh || (r.act? (.goStop n)).isNone) &&
  !r.fleet.canStep

/-! ## What can be seen of a run -/

/-- What is seen of acts in order, one act after the other. -/
def trace {α : Type} (shows : Race → Act → List α) (r : Race) : List Act → List α
  | [] => []
  | a :: rest =>
    shows r a ++
      match r.act? a with
      | some t => t.trace shows rest
      | none => []

/-- The message that is received with an act, if any. -/
def takes (r : Race) : Act → List Message
  | .receive => (r.fleet.receive?.map Prod.fst).toList
  | _ => []

/-- The call of start that starts a worker with an act, if any. -/
def spawns (r : Race) : Act → List Nat
  | .goStart n =>
    match r.starts[n]? with
    | some (.spawning slot) => if slot < r.supervisor.sources.length then [n] else []
    | _ => []
  | _ => []

/-- The call of stop that takes a handle with an act, and the slot of the worker, if any. -/
def pops (r : Race) : Act → List (Nat × Nat)
  | .goStop n =>
    match r.stops[n]? with
    | some (.seeking _ _) => r.supervisor.unjoined.getLast?.toList.map fun slot => (n, slot)
    | _ => []
  | _ => []

/-- The slot of the worker whose handle is lost with an act, because the call that waits for it is
given up. -/
def forsakes (r : Race) : Act → List Nat
  | .giveUp n =>
    match r.stops[n]? with
    | some (.joining _ _ slot) => [slot]
    | _ => []
  | _ => []

/-- The messages that are received with some acts, in order. -/
def received (r : Race) (acts : List Act) : List Message := r.trace takes acts

/-- The calls that start workers with some acts, one entry for each worker. -/
def spawners (r : Race) (acts : List Act) : List Nat := r.trace spawns acts

/-- The handles that calls of stop take with some acts: the call, and the slot of the worker. -/
def taken (r : Race) (acts : List Act) : List (Nat × Nat) := r.trace pops acts

/-- The slots of the workers whose handles are lost with some acts. -/
def forsaken (r : Race) (acts : List Act) : List Nat := r.trace forsakes acts

/-! ## Several acts -/

variable {r t u : Race} {xs ys acts : List Act} {a : Act}

theorem run?_cons (first : r.act? a = some t) : r.run? (a :: xs) = t.run? xs := by
  simp [run?, first]

theorem run?_append (first : r.run? xs = some t) : r.run? (xs ++ ys) = t.run? ys := by
  induction xs generalizing r with
  | nil =>
    cases first
    rfl
  | cons a xs ih =>
    obtain ⟨r', one, rest⟩ := Option.bind_eq_some_iff.1 first
    rw [List.cons_append, run?_cons one]
    exact ih rest

theorem run?_singleton (one : r.act? a = some t) : r.run? [a] = some t := run?_cons one

theorem trace_append {α : Type} (shows : Race → Act → List α) (first : r.run? xs = some t) :
    r.trace shows (xs ++ ys) = r.trace shows xs ++ t.trace shows ys := by
  induction xs generalizing r with
  | nil =>
    cases first
    rfl
  | cons a xs ih =>
    obtain ⟨r', one, rest⟩ := Option.bind_eq_some_iff.1 first
    simp only [List.cons_append, trace, one, ih rest, List.append_assoc]

/-- What is seen of one more act. -/
theorem trace_concat {α : Type} (shows : Race → Act → List α) (first : r.run? xs = some t)
    (a : Act) : r.trace shows (xs ++ [a]) = r.trace shows xs ++ shows t a := by
  rw [trace_append shows first, trace]
  congr 1
  cases t.act? a <;> simp [trace]

/-- What holds at the start and is kept by every act holds after all of them. -/
theorem induction_of_run? {P : List Act → Race → Prop} (start : P [] r)
    (keeps : ∀ {xs : List Act} {a : Act} {t u : Race}, r.run? xs = some t → P xs t →
      t.act? a = some u → P (xs ++ [a]) u)
    (ran : r.run? acts = some t) : P acts t := by
  -- the acts that are still to come are taken off one by one
  have later : ∀ (ys xs : List Act) {c : Race}, r.run? xs = some c → P xs c →
      c.run? ys = some t → P (xs ++ ys) t := by
    intro ys
    induction ys with
    | nil =>
      intro xs c _ h ran
      cases ran
      simpa using h
    | cons a ys ih =>
      intro xs c before h ran
      obtain ⟨c', one, rest⟩ := Option.bind_eq_some_iff.1 ran
      have next : r.run? (xs ++ [a]) = some c' :=
        (run?_append before).trans (run?_singleton one)
      simpa using ih _ next (keeps before h one) rest
  simpa using later acts [] rfl start ran

/-! ## What an act comes to -/

/-- What the next section of a call of start comes to. -/
inductive Starting.Goes (s : Supervisor) : Starting → Supervisor → Starting → Prop where
  | tooLate (stopped : s.stopped = true) : Goes s .fresh (s.note .alreadyStopped) .returned
  | again (unstopped : s.stopped = false) (started : s.started = true) :
      Goes s .fresh (s.note .alreadyStarted) .returned
  | enters (unstopped : s.stopped = false) (unstarted : s.started = false) :
      Goes s .fresh { s with started := true } .entered
  | refused (closed : s.fleet.hub.bus.ownSender = false) :
      Goes s .entered (s.note .cannotStart) .returned
  | equips (own : s.fleet.hub.bus.ownSender = true) :
      Goes s .entered { s with fleet := { s.fleet with spareSender := true } } (.spawning 0)
  | spawns {slot : Nat} {addr : String} (source : s.sources[slot]? = some addr) :
      Goes s (.spawning slot)
        { s with fleet := s.fleet.spawnNext slot addr, unjoined := s.unjoined ++ [slot] }
        (.spawning (slot + 1))
  | leaves {slot : Nat} (done : s.sources[slot]? = none) :
      Goes s (.spawning slot)
        ({ s with fleet := { s.fleet with spareSender := false } }.note
          (.started s.sources.length)) .returned

theorem Starting.goes_of_next? {s s' : Supervisor} {call call' : Starting}
    (h : call.next? s = some (s', call')) : Goes s call s' call' := by
  cases call with
  | fresh =>
    simp only [next?] at h
    split at h
    · next stopped =>
      cases h
      exact .tooLate stopped
    · next unstopped =>
      split at h
      · next started =>
        cases h
        exact .again (by simpa using unstopped) started
      · next unstarted =>
        cases h
        exact .enters (by simpa using unstopped) (by simpa using unstarted)
  | entered =>
    simp only [next?] at h
    split at h
    · next closed =>
      cases h
      exact .refused (by simpa using closed)
    · next own =>
      cases h
      exact .equips (by simpa using own)
  | spawning slot =>
    simp only [next?] at h
    split at h
    · next addr source =>
      cases h
      exact .spawns source
    · next done =>
      cases h
      exact .leaves done
  | returned => cases h

/-- What the next section of a call of stop comes to. -/
inductive Stopping.Goes (s : Supervisor) : Stopping → Supervisor → Stopping → Prop where
  | follows (stopped : s.stopped = true) : Goes s .fresh s (.seeking false 0)
  | flags (unstopped : s.stopped = false) : Goes s .fresh { s with stopped := true } .flagged
  | cancels : Goes s .flagged { s with fleet := s.fleet.stop } .cancelled
  | closes :
      Goes s .cancelled ({ s with fleet := s.fleet.closeAll.1 }.note
        (.forceClosed s.fleet.closeAll.2)) (.seeking true 0)
  | finds {first : Bool} {joined slot : Nat} {rest : List Nat}
      (last : s.unjoined = rest ++ [slot]) :
      Goes s (.seeking first joined) { s with unjoined := rest } (.joining first joined slot)
  | empties {first : Bool} {joined : Nat} (none : s.unjoined = []) :
      Goes s (.seeking first joined) s (.emptied first joined)
  | joins {first : Bool} {joined slot : Nat} (ended : s.hasEnded slot = true) :
      Goes s (.joining first joined slot) (s.noteJoin slot) (.seeking first (joined + 1))
  | finishes {first : Bool} {joined : Nat} :
      Goes s (.emptied first joined) (s.finishStop first joined).1 .finished

theorem Stopping.goes_of_next? {s s' : Supervisor} {call call' : Stopping}
    (h : call.next? s = some (s', call')) : Goes s call s' call' := by
  cases call with
  | fresh =>
    simp only [next?] at h
    split at h
    · next stopped =>
      cases h
      exact .follows stopped
    · next unstopped =>
      cases h
      exact .flags (by simpa using unstopped)
  | flagged =>
    cases h
    exact .cancels
  | cancelled =>
    cases h
    exact .closes
  | seeking first joined =>
    simp only [next?] at h
    split at h
    · next slot last =>
      cases h
      obtain ⟨rest, split⟩ := List.getLast?_eq_some_iff.1 last
      exact .finds (by rw [split, List.dropLast_concat])
    · next none =>
      cases h
      exact .empties (List.getLast?_eq_none_iff.1 none)
  | joining first joined slot =>
    simp only [next?] at h
    split at h
    · next ended =>
      cases h
      exact .joins ended
    · cases h
  | emptied first joined =>
    cases h
    exact .finishes
  | finished => cases h
  | unused => cases h

/-- What comes of giving a call of stop up. -/
inductive Stopping.Drops (s : Supervisor) : Stopping → Supervisor → Stopping → Prop where
  | unused : Drops s .fresh s .unused
  | forsakes {first : Bool} {joined slot : Nat} :
      Drops s (.joining first joined slot) { s with fleet := s.fleet.closeBus.1 } .finished

theorem Stopping.drops_of_giveUp? {s s' : Supervisor} {call call' : Stopping}
    (h : call.giveUp? s = some (s', call')) : Drops s call s' call' := by
  cases call with
  | fresh =>
    cases h
    exact .unused
  | joining first joined slot =>
    cases h
    exact .forsakes
  | _ => cases h

/-- The act of the workers, the receiver or the clock that an act is, if any. -/
def Act.ofFleet? : Act → Option Fleet.Act
  | .step slot => some (.step slot)
  | .receive => some .receive
  | .pass t => some (.lag t)
  | _ => none

/-- What the acts that are possible come to. -/
inductive Change (r : Race) : Act → Race → Prop where
  | started : Change r .start { r with starts := r.starts ++ [.fresh] }
  | stopped : Change r .stop { r with stops := r.stops ++ [.fresh] }
  | start {n : Nat} {call next : Starting} {s : Supervisor} (made : r.starts[n]? = some call)
      (free : call = .fresh → r.locked = false) (goes : call.Goes r.supervisor s next) :
      Change r (.goStart n) { r with supervisor := s, starts := r.starts.set n next }
  | stop {n : Nat} {call next : Stopping} {s : Supervisor} (made : r.stops[n]? = some call)
      (free : call.locks = true → r.locked = false) (goes : call.Goes r.supervisor s next) :
      Change r (.goStop n) { r with supervisor := s, stops := r.stops.set n next }
  | giveUp {n : Nat} {call next : Stopping} {s : Supervisor} (made : r.stops[n]? = some call)
      (drops : call.Drops r.supervisor s next) :
      Change r (.giveUp n) { r with supervisor := s, stops := r.stops.set n next }
  | fleet {a : Act} {own : Fleet.Act} {fleet : Fleet} (kind : a.ofFleet? = some own)
      (act : r.fleet.act? own = some fleet) :
      Change r a { r with supervisor := { r.supervisor with fleet } }

theorem change_of_act? (h : r.act? a = some t) : r.Change a t := by
  cases a with
  | start =>
    cases h
    exact .started
  | stop =>
    cases h
    exact .stopped
  | goStart n =>
    obtain ⟨call, made, h⟩ := Option.bind_eq_some_iff.1 h
    simp only [Option.ite_none_left_eq_some] at h
    obtain ⟨⟨s, next⟩, goes, rfl⟩ := Option.map_eq_some_iff.1 h.2
    exact .start made (fun fresh => by simpa [fresh] using h.1) (Starting.goes_of_next? goes)
  | goStop n =>
    obtain ⟨call, made, h⟩ := Option.bind_eq_some_iff.1 h
    simp only [Option.ite_none_left_eq_some] at h
    obtain ⟨⟨s, next⟩, goes, rfl⟩ := Option.map_eq_some_iff.1 h.2
    exact .stop made (fun locks => by simpa [locks] using h.1) (Stopping.goes_of_next? goes)
  | giveUp n =>
    obtain ⟨call, made, h⟩ := Option.bind_eq_some_iff.1 h
    obtain ⟨⟨s, next⟩, drops, rfl⟩ := Option.map_eq_some_iff.1 h
    exact .giveUp made (Stopping.drops_of_giveUp? drops)
  | step slot =>
    obtain ⟨fleet, act, rfl⟩ := Option.map_eq_some_iff.1 h
    exact .fleet rfl act
  | receive =>
    obtain ⟨fleet, act, rfl⟩ := Option.map_eq_some_iff.1 h
    exact .fleet rfl act
  | pass t =>
    obtain ⟨fleet, act, rfl⟩ := Option.map_eq_some_iff.1 h
    exact .fleet rfl act

end Race

end FeedCapture
