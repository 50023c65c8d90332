import FeedCapture.Bus.Exchange

/-!
# Exchanges turn by turn

A step of an exchange lets every task run until it waits.  Here nothing runs by itself: the direct
part of a step, one look of a waiting task at what it waits for, and the end of the receiver are
turns of their own.  The turns may come in any order, so between a place that becomes free and the
delivery that it belongs to anything else can happen.

## Main definitions

* `Exchange.Turn`, `Exchange.turn?` — what can happen, and what comes of it
* `Exchange.turns?` — what comes of several turns in order
* `Exchange.waits` — every task waits

The main statement says that what no turn breaks holds after all of them (`induction_of_turns?`).
-/

namespace FeedCapture.Exchange

/-- Something that can happen to an exchange. -/
inductive Turn where
  /-- The direct part of a step. -/
  | direct (s : Step)
  /-- A delivery that waits runs. -/
  | delivery (d : Pending)
  /-- The first receive in line runs. -/
  | receive
  /-- The receiver ends, because nobody holds it any more. -/
  | letGo
deriving DecidableEq, Repr

/-- What a delivery that waits comes to when it runs: it looks at its token first, and then at the
bus. -/
def look? (e : Exchange) (d : Pending) : Option (Exchange × Delivery) :=
  if e.tokens.tree.isCancelled d.token then
    some ({ e with bus := e.bus.leave d.id, deliveries := e.deliveries.erase d }, .stopped)
  else
    match e.bus.claim d.id d.message with
    | (bus, some outcome) => some ({ e with bus, deliveries := e.deliveries.erase d }, outcome)
    | (_, none) => none

/-- What comes of a turn, with the tasks that end, if the turn is possible. -/
def turn? (e : Exchange) : Turn → Option (Exchange × List (String × Outcome))
  | .direct s => some ((e.act s).1, (e.act s).2.done)
  | .delivery d =>
    if d ∈ e.deliveries then
      (e.look? d).map fun (e, outcome) => (e, [(d.id, .delivery outcome)])
    else none
  | .receive =>
    match e.receives with
    | [] => none
    | id :: rest =>
      match e.bus.take? with
      | some (m, bus) => some ({ e with bus, receives := rest }, [(id, .received m)])
      | none => if e.hasSender then none else some ({ e with receives := rest }, [(id, .ended)])
  | .letGo =>
    if e.hasReceiver || !e.bus.receiving then none
    else some ({ e with bus := e.bus.dropReceiver }, [])

/-- What comes of turns in order, with the tasks that end, if all of the turns are possible. -/
def turns? (e : Exchange) : List Turn → Option (Exchange × List (String × Outcome))
  | [] => some (e, [])
  | t :: rest =>
    (e.turn? t).bind fun (e, done) => (e.turns? rest).map fun (e, later) => (e, done ++ later)

/-- Every task waits: none of them can go on. -/
def waits (e : Exchange) : Bool :=
  (e.deliveries.all fun d => (e.look? d).isNone) && (e.turn? .receive).isNone &&
    (e.turn? .letGo).isNone

/-- The step whose direct part a turn is. -/
def Turn.step? : Turn → Option Step
  | .direct s => some s
  | _ => none

/-! ## Several turns -/

variable {e e' e'' : Exchange} {xs ys : List Turn} {done : List (String × Outcome)}
  {result final : Exchange × List (String × Outcome)}

theorem turns?_cons {t : Turn} (first : e.turn? t = some result)
    (rest : result.1.turns? xs = some final) :
    e.turns? (t :: xs) = some (final.1, result.2 ++ final.2) := by
  simp [turns?, first, rest]

theorem exists_of_turns?_cons {t : Turn} {all : List (String × Outcome)}
    (ran : e.turns? (t :: xs) = some (e'', all)) :
    ∃ e' done later, e.turn? t = some (e', done) ∧ e'.turns? xs = some (e'', later) ∧
      all = done ++ later := by
  obtain ⟨⟨e', done⟩, first, ran⟩ := Option.bind_eq_some_iff.1 ran
  obtain ⟨⟨e₂, later⟩, rest, same⟩ := Option.map_eq_some_iff.1 ran
  cases same
  exact ⟨e', done, later, first, rest, rfl⟩

theorem turns?_append (first : e.turns? xs = some result)
    (rest : result.1.turns? ys = some final) :
    e.turns? (xs ++ ys) = some (final.1, result.2 ++ final.2) := by
  induction xs generalizing e result with
  | nil =>
    cases first
    exact rest
  | cons t xs ih =>
    obtain ⟨c, new, old, turn, ran, all⟩ := exists_of_turns?_cons first
    rw [all, List.append_assoc]
    exact turns?_cons turn (ih ran rest)

/-- What holds at the start and is kept by every turn holds after all of them. -/
theorem induction_of_turns? {P : List Turn → Exchange → List (String × Outcome) → Prop}
    {turns : List Turn} (start : P [] e [])
    (keeps : ∀ {xs : List Turn} {t : Turn} {c c' : Exchange} {done new : List (String × Outcome)},
      e.turns? xs = some (c, done) → P xs c done → c.turn? t = some (c', new) →
      P (xs ++ [t]) c' (done ++ new))
    (ran : e.turns? turns = some (e', done)) : P turns e' done := by
  -- the turns that are still to come are taken off one by one
  have later : ∀ (ys xs : List Turn) {c : Exchange} {past new : List (String × Outcome)},
      e.turns? xs = some (c, past) → P xs c past → c.turns? ys = some (e', new) →
      P (xs ++ ys) e' (past ++ new) := by
    intro ys
    induction ys with
    | nil =>
      intro xs c past new _ h ran
      cases ran
      simpa using h
    | cons t ys ih =>
      intro xs c past new before h ran
      obtain ⟨c', first, rest, turn, others, rfl⟩ := exists_of_turns?_cons ran
      have one : c.turns? [t] = some (c', first) := by
        simpa using turns?_cons turn (show c'.turns? [] = some (c', []) from rfl)
      simpa [List.append_assoc] using ih _ (turns?_append before one) (keeps before h turn) others
  simpa using later turns [] rfl start ran

end FeedCapture.Exchange
