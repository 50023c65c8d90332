import FeedCapture.Pipeline
import FeedCapture.Proofs.Fleet.Counting
import FeedCapture.Proofs.Fleet.Receiving
import FeedCapture.Proofs.Supervisor.Fleets

/-!
# What a capture does to its workers

Whatever happens to a capture, its workers, its bus and its clock go through a run of a fleet, in
which only the consumer receives and nobody gives up receiving.

## Main definitions

* `Pipeline.taken` — the messages that the consumer has received
* `Pipeline.Change` — the acts that are possible, with what they come to

The main statements are `Pipeline.change_of_act?` and `Pipeline.exists_run?_of_act?`.
-/

namespace FeedCapture

namespace Fleet

variable {f g : Fleet}

/-- Nothing is received by telling the fleet something. -/
theorem received_of_control {acts : List Act} (h : ∀ a ∈ acts, a.isControl = true) :
    f.received acts = [] := by
  induction acts generalizing f with
  | nil => rfl
  | cons a acts ih =>
    have none : f.takes a = [] := by
      cases a <;> first | rfl | cases h _ (List.mem_cons_self ..)
    rw [received, none, List.nil_append]
    split
    · exact ih fun b hb => h b (List.mem_cons_of_mem a hb)
    · rfl

end Fleet

namespace Pipeline

/-- The messages that the consumer has received, in order. -/
def taken (p : Pipeline) : List Message := p.written ++ p.hand.toList

variable {p q : Pipeline}

theorem written_after (p : Pipeline)
    (s : Drain.State DayFiles × (Instant × Drain.Event DayFiles.Failure)) :
    (p.after s).written = p.written ++ s.2.2.message?.toList := by
  cases h : s.2.2.message? <;> simp [written, after, h]

/-- The capture after the consumer has closed the day files. -/
def finished (p : Pipeline) : Pipeline :=
  let last := Drain.closeStep DayFiles.sink p.drain p.now
  { p with
    drain := last.final
    past := last.events.reverse ++ p.past
    result := some last.result }

/-- What comes of the acts.  The consumer does one thing after the other: it receives with nothing
in hand, and closes the day files once. -/
inductive Change (p : Pipeline) : Act → Pipeline → Prop where
  | step {slot : Nat} {fleet : Fleet} (act : p.fleet.act? (.step slot) = some fleet) :
      Change p (.step slot) { p with live := p.live.withFleet fleet }
  | pass {t : Instant} {fleet : Fleet} (act : p.fleet.act? (.lag t) = some fleet) :
      Change p (.pass t) { p with live := p.live.withFleet fleet }
  | shutDown : Change p .shutDown { p with live := p.live.shutDown }
  | poll : Change p .poll { p with live := p.live.poll }
  | receive {m : Message} {fleet : Fleet} (empty : p.hand = none) (going : p.result = none)
      (received : p.fleet.receive? = some (m, fleet)) :
      Change p .receive { p with live := p.live.withFleet fleet, hand := some m }
  | write {m : Message} (hand : p.hand = some m) :
      Change p .write
        ({ p with hand := none }.after (Drain.writeStep DayFiles.sink p.drain p.now m))
  | tick (going : p.result = none) :
      Change p .tick (p.after (Drain.flushStep DayFiles.sink { p.drain with now := p.now }))
  | compress {path : String} (pending : path ∈ p.files.compressing) :
      Change p (.compress path)
        { p with drain := { p.drain with sink := p.files.compressFile path } }
  | finish (empty : p.hand = none) (going : p.result = none) (ended : p.fleet.atEnd = true) :
      Change p .finish p.finished

theorem change_of_act? {a : Act} (h : p.act? a = some q) : p.Change a q := by
  have free : p.waits = true → p.hand = none ∧ p.result = none := by
    simp [waits, Option.isNone_iff_eq_none]
  cases a with
  | step slot =>
    obtain ⟨fleet, act, rfl⟩ := Option.map_eq_some_iff.1 h
    exact .step act
  | pass t =>
    obtain ⟨fleet, act, rfl⟩ := Option.map_eq_some_iff.1 h
    exact .pass act
  | shutDown => cases h; exact .shutDown
  | poll => cases h; exact .poll
  | receive =>
    simp only [act?, Option.ite_none_right_eq_some] at h
    obtain ⟨⟨m, fleet⟩, received, rfl⟩ := Option.map_eq_some_iff.1 h.2
    exact .receive (free h.1).1 (free h.1).2 received
  | write =>
    obtain ⟨m, hand, rfl⟩ := Option.map_eq_some_iff.1 h
    exact .write hand
  | tick =>
    simp only [act?, Option.ite_none_right_eq_some, Option.some.injEq, Bool.and_eq_true] at h
    obtain ⟨⟨waits, -⟩, rfl⟩ := h
    exact .tick (free waits).2
  | compress path =>
    simp only [act?, Option.ite_none_right_eq_some, Option.some.injEq] at h
    obtain ⟨pending, rfl⟩ := h
    exact .compress pending
  | finish =>
    simp only [act?, Option.ite_none_right_eq_some, Option.some.injEq, Bool.and_eq_true] at h
    obtain ⟨⟨waits, ended⟩, rfl⟩ := h
    exact .finish (free waits).1 (free waits).2 ended

/-- Whatever happens to a capture, its fleet goes through a run in which only the consumer
receives. -/
theorem exists_run?_of_act? {a : Act} (h : p.act? a = some q) :
    ∃ acts, .dropReceivers ∉ acts ∧ p.fleet.run? acts = some q.fleet ∧
      q.taken = p.taken ++ p.fleet.received acts := by
  have told : ∀ call : StopCall, ∀ live : Live,
      live.supervisor = (p.live.supervisor.pollStop call).1 →
      ∃ acts, .dropReceivers ∉ acts ∧ p.fleet.run? acts = some live.fleet ∧
        p.taken = p.taken ++ p.fleet.received acts := by
    intro call live same
    obtain ⟨acts, control, ran⟩ := p.live.supervisor.exists_run?_pollStop call
    refine ⟨acts, fun drop => ?_, by rw [Live.fleet, same]; exact ran, ?_⟩
    · cases control _ drop
    · rw [Fleet.received_of_control control, List.append_nil]
  -- what the consumer does to the day files does not concern the fleet
  have still : ∀ q : Pipeline, q.fleet = p.fleet → q.taken = p.taken →
      ∃ acts, .dropReceivers ∉ acts ∧ p.fleet.run? acts = some q.fleet ∧
        q.taken = p.taken ++ p.fleet.received acts := by
    intro q fleet taken
    exact ⟨[], by simp, by rw [fleet]; rfl, by simp [taken, Fleet.received]⟩
  cases change_of_act? h with
  | @step slot fleet act =>
    refine ⟨[.step slot], by simp, by simp [Fleet.run?, act]; rfl, ?_⟩
    simp [Fleet.received, Fleet.takes, act, taken, written]
  | @pass t fleet act =>
    refine ⟨[.lag t], by simp, by simp [Fleet.run?, act]; rfl, ?_⟩
    simp [Fleet.received, Fleet.takes, act, taken, written]
  | shutDown =>
    unfold Live.shutDown
    split
    · exact still _ rfl rfl
    · exact told .fresh _ rfl
  | poll =>
    unfold Live.poll
    split
    · exact still _ rfl rfl
    · next call _ => exact told call _ rfl
  | @receive m fleet empty going received =>
    have act : p.fleet.act? .receive = some fleet := by simp [Fleet.act?, received]
    refine ⟨[.receive], by simp, by simp [Fleet.run?, act]; rfl, ?_⟩
    simp [Fleet.received, Fleet.takes, act, received, taken, written, empty]
  | write hand =>
    refine still _ rfl ?_
    simp only [taken, written_after, hand]
    simp [after, Drain.writeStep, Drain.Event.message?, written]
  | tick =>
    refine still _ rfl ?_
    simp only [taken, written_after]
    simp [after, Drain.flushStep, Drain.Event.message?]
  | compress => exact still _ rfl rfl
  | finish =>
    refine still _ rfl ?_
    simp [finished, taken, written, Drain.closeStep, Drain.Event.message?]

/-- What happened to a run of a capture happened in a run of its fleet. -/
theorem exists_run?_of_run? {acts : List Act} (ran : p.run? acts = some q) :
    ∃ acts, .dropReceivers ∉ acts ∧ p.fleet.run? acts = some q.fleet ∧
      q.taken = p.taken ++ p.fleet.received acts := by
  induction acts generalizing p with
  | nil =>
    cases ran
    exact ⟨[], by simp, rfl, by simp [Fleet.received]⟩
  | cons a acts ih =>
    obtain ⟨p', hp, ran⟩ := Option.bind_eq_some_iff.1 ran
    obtain ⟨xs, keep, first, taken⟩ := exists_run?_of_act? hp
    obtain ⟨ys, keep', second, taken'⟩ := ih ran
    refine ⟨xs ++ ys, by simp [keep, keep'], ?_, ?_⟩
    · rw [Fleet.run?_append, first]
      exact second
    · rw [taken', taken, Fleet.received_append first, List.append_assoc]

end Pipeline

end FeedCapture
