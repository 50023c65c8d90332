import FeedCapture.Supervisor.Run

/-!
# Runs in which the clock waits

Runs of a supervisor in which no time passes while a worker can go on or a call of stop that has run
can.  The clock can be told not to wait for one worker, which is then as slow as it likes; but a
call of stop that waits for this worker makes the clock wait too.

## Main definitions

* `Supervision.rests` — everybody waits whom the clock waits for
* `Supervision.Mark` — what can be seen of a run
* `Supervision.timely?` — what comes of several acts in order, if the clock waits, and what is seen
  of them and when
-/

namespace FeedCapture

/-- The call has not run yet. -/
def StopCall.isFresh : StopCall → Bool
  | .fresh => true
  | _ => false

theorem StopCall.isFresh_iff {c : StopCall} : c.isFresh = true ↔ c = .fresh := by
  cases c <;> simp [isFresh]

namespace Supervision

/-- A call of stop that has run can go on, or it waits for a worker that can. -/
def presses (s : Supervision) : StopCall → Bool
  | .joining _ _ slot =>
    match s.supervisor.fleet.workers[slot]? with
    | some w => w.ended || (w.step? s.supervisor.fleet.hub).isSome
    | none => true
  | _ => false

/-- Everybody waits, except perhaps the worker in the slot that is spared, for which the clock does
not wait. -/
def rests (spared : Option Nat) (s : Supervision) : Bool :=
  (s.supervisor.fleet.workers.all fun w =>
      spared = some w.key.slot || (w.step? s.supervisor.fleet.hub).isNone) &&
    s.calls.all fun call => !s.presses call

/-- The clock can be moved on to an instant: everybody waits, and goes on no earlier. -/
def canPass (spared : Option Nat) (s : Supervision) (t : Instant) : Bool :=
  decide (s.supervisor.fleet.hub.now ≤ t) && s.rests spared &&
    s.supervisor.fleet.workers.all fun w =>
      spared = some w.key.slot || w.wakeAt.all fun wake => t ≤ wake

/-- Moves the clock on. -/
def moveTo (s : Supervision) (t : Instant) : Supervision :=
  { s with supervisor := { s.supervisor with fleet := s.supervisor.fleet.moveTo t } }

/-- What comes of an act, if it is possible and the clock waits. -/
def timelyAct? (spared : Option Nat) (s : Supervision) : Act → Option Supervision
  | .pass t => if s.canPass spared t then some (s.moveTo t) else none
  | a => s.act? a

/-- What can be seen of a run. -/
inductive Mark where
  /-- The supervisor is told to start, a call of stop is made or given up, or a worker takes a
  step. -/
  | did (a : Act)
  /-- A message is received. -/
  | took (m : Message)
  /-- A call of stop runs for the first time. -/
  | began (call : Nat)
  /-- A call of stop is over. -/
  | returned (call : Nat)
deriving DecidableEq, Repr

/-- The mark concerns others than the worker in a slot, and is no end of a call of stop. -/
def Mark.isApart (slot : Nat) : Mark → Bool
  | .did (.step n) => n ≠ slot
  | .returned _ => false
  | _ => true

/-- What is seen of a run, without the steps of one worker and the ends of calls of stop. -/
def apartFrom (slot : Nat) (seen : List (Instant × Mark)) : List (Instant × Mark) :=
  seen.filter fun e => e.2.isApart slot

/-- Running a call of stop ends it. -/
def completes (s : Supervision) (n : Nat) : Bool :=
  match s.calls[n]? with
  | some call => call != .finished && (s.supervisor.pollStop call).2 == .finished
  | none => false

/-- What can be seen of an act. -/
def marks (s : Supervision) : Act → List Mark
  | .poll n =>
    (if s.calls[n]? = some .fresh then [.began n] else []) ++
      if s.completes n then [.returned n] else []
  | .receive => (s.takes .receive).map .took
  | .pass _ => []
  | a => [.did a]

/-- What can be seen of an act, and when. -/
def sights (s : Supervision) (a : Act) : List (Instant × Mark) :=
  (s.marks a).map fun m => (s.supervisor.fleet.hub.now, m)

/-- What comes of acts in order, if all of them are possible and the clock waits, and what is seen
of them and when. -/
def timely? (spared : Option Nat) (s : Supervision) :
    List Act → Option (Supervision × List (Instant × Mark))
  | [] => some (s, [])
  | a :: rest =>
    (s.timelyAct? spared a).bind fun t =>
      (t.timely? spared rest).map fun (u, later) => (u, s.sights a ++ later)

variable {spared : Option Nat} {s t u : Supervision} {acts xs ys : List Act} {a : Act}
  {seen later : List (Instant × Mark)}

/-! ## What can happen -/

/-- The clock moves on. -/
def Act.isPass : Act → Bool
  | .pass _ => true
  | _ => false

/-- What acts come to if the clock waits: it moves on, or something else happens as it always
does. -/
inductive Timely (spared : Option Nat) (s : Supervision) : Act → Supervision → Prop
  | pass {time : Instant} (can : s.canPass spared time = true) :
      Timely spared s (.pass time) (s.moveTo time)
  | act {a : Act} {t : Supervision} (other : a.isPass = false) (acted : s.act? a = some t) :
      Timely spared s a t

theorem timely_of_timelyAct? (acted : s.timelyAct? spared a = some t) : Timely spared s a t := by
  cases a with
  | pass time =>
    simp only [timelyAct?, Option.ite_none_right_eq_some, Option.some.injEq] at acted
    obtain ⟨can, rfl⟩ := acted
    exact .pass can
  | _ => exact .act rfl acted

theorem timelyAct?_of_canPass {time : Instant} (can : s.canPass spared time = true) :
    s.timelyAct? spared (.pass time) = some (s.moveTo time) :=
  if_pos can

theorem timelyAct?_of_act? (other : a.isPass = false) (acted : s.act? a = some t) :
    s.timelyAct? spared a = some t := by
  cases a with
  | pass time => cases other
  | _ => exact acted

/-! ## Several acts -/

theorem timely?_cons (first : s.timelyAct? spared a = some t)
    (rest : t.timely? spared acts = some (u, later)) :
    s.timely? spared (a :: acts) = some (u, s.sights a ++ later) := by
  simp [timely?, first, rest]

theorem exists_of_timely?_cons (ran : s.timely? spared (a :: acts) = some (u, seen)) :
    ∃ t later, s.timelyAct? spared a = some t ∧ t.timely? spared acts = some (u, later) ∧
      seen = s.sights a ++ later := by
  obtain ⟨t, first, ran⟩ := Option.bind_eq_some_iff.1 ran
  obtain ⟨⟨u, later⟩, rest, same⟩ := Option.map_eq_some_iff.1 ran
  cases same
  exact ⟨t, later, first, rest, rfl⟩

theorem timely?_append (first : s.timely? spared xs = some (t, seen))
    (rest : t.timely? spared ys = some (u, later)) :
    s.timely? spared (xs ++ ys) = some (u, seen ++ later) := by
  induction xs generalizing s seen with
  | nil =>
    cases first
    exact rest
  | cons a xs ih =>
    obtain ⟨t', later', acted, ran, rfl⟩ := exists_of_timely?_cons first
    rw [List.append_assoc]
    exact timely?_cons acted (ih ran)

theorem timely?_singleton (acted : s.timelyAct? spared a = some t) :
    s.timely? spared [a] = some (t, s.sights a) := by
  simpa using timely?_cons acted (show t.timely? spared [] = some (t, []) from rfl)

end Supervision

end FeedCapture
