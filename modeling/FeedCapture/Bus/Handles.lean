import FeedCapture.Bus.Exchange

/-!
# Receiving handles

A bus hands out any number of receiving handles, and handles can be cloned.  They all share the one
receiver of the bus, so it makes no difference through which of them a receive goes; but the
receiver lives as long as one of them is held.

## Main definitions

* `Handles` — an exchange together with the receiving handles that are held
* `Handles.Step`, `Handles.step`, `Handles.run`
-/

namespace FeedCapture.Exchange

/-- An exchange and the names of the receiving handles that are held. -/
structure Handles where
  exchange : Exchange
  streams : List String := []
deriving DecidableEq, Repr

namespace Handles

/-- One thing to do with the bus or with a receiving handle. -/
inductive Step where
  /-- A step of the exchange; a receive goes through any handle that is held, and dropping the
  stream drops all handles. -/
  | bus (s : Exchange.Step)
  /-- Asks the bus for a receiving handle. -/
  | stream (id : String)
  | cloneStream (id source : String)
  | dropStream (id : String)
deriving DecidableEq, Repr

/-- The step of the exchange that a step is, if any. -/
def Step.bus? : Step → Option Exchange.Step
  | .bus s => some s
  | _ => none

/-- A new bus, which holds the receiver itself; nobody holds a handle. -/
def ofBus (bus : Bus String) : Handles where
  exchange := { Exchange.ofBus bus with hasStream := false }

/-- Holds some handles; without any, the exchange has no stream. -/
def keep (h : Handles) (streams : List String) : Handles where
  exchange := { h.exchange with hasStream := !streams.isEmpty }
  streams := streams

/-- Puts a receiving handle under a name; an earlier one of that name is given up. -/
def hold (h : Handles) (id : String) : Handles :=
  h.keep (id :: h.streams.filter fun s => s ≠ id)

/-- Does the direct part of a step: the answer, the tasks that end with it, and the log. -/
def act (h : Handles) : Step → Handles × Answer
  | .bus s =>
    let (exchange, answer) := h.exchange.act s
    ({ exchange, streams := if s = .dropStream then [] else h.streams }, answer)
  | .stream id =>
    if h.exchange.hasBus then (h.hold id, ⟨.ok, [], []⟩) else (h, ⟨.noBus, [], []⟩)
  | .cloneStream id source =>
    if source ∈ h.streams then (h.hold id, ⟨.ok, [], []⟩) else (h, ⟨.noStream, [], []⟩)
  | .dropStream id =>
    (h.keep (h.streams.filter fun s => s ≠ id), ⟨.flag (id ∈ h.streams), [], []⟩)

/-- Takes one step, and lets every task run until it waits. -/
def step (h : Handles) (s : Step) : Handles × Answer :=
  let (h, answer) := h.act s
  let (exchange, done) := h.exchange.settle
  ({ h with exchange }, { answer with done := answer.done ++ done })

/-- Takes the steps in order. -/
def run (h : Handles) : List Step → Handles × List Answer
  | [] => (h, [])
  | s :: rest =>
    let (h, answer) := h.step s
    let (h, answers) := run h rest
    (h, answer :: answers)

theorem run_concat (h : Handles) (steps : List Step) (s : Step) :
    h.run (steps ++ [s]) =
      (((h.run steps).1.step s).1, (h.run steps).2 ++ [((h.run steps).1.step s).2]) := by
  induction steps generalizing h with
  | nil => rfl
  | cons first steps ih => simp only [List.cons_append, run, ih]

end Handles

end FeedCapture.Exchange
