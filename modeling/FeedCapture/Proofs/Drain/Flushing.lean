import FeedCapture.Proofs.Drain.Running
import Mathlib.Data.List.Induction

/-!
# Written records are flushed in time

While writing takes no time, a record that was written is followed by a flush, or by the end, within
one period of the ticker, however messages and ticks coincide.  The reason is that the next tick is
never due later than one period from now, and that the ticker is looked at as long as something is
written and not flushed.  A flush that fails counts as one that was made: what it did not hand over
is not tried again before another record is written.

## Main definitions

* `Drain.Prompt` — writing takes no time, wherever calls bring the sink
* `Drain.Drains` — what is drained, one call of the sink after the other
* `Drain.Fresh` — a record was written since the last flush
* `Drain.Uncovered` — a record was written since the last flush that succeeded

The main statements are `Drain.flushes_of_run` and `Drain.attempts_of_run`.
-/

namespace FeedCapture

/-- The next tick is due after a period at most. -/
structure Ticker.Timely (period : Duration) (now : Instant) (t : Ticker) : Prop where
  every : t.period = period
  due : t.due ≤ now + period

namespace Ticker.Timely

variable {period : Duration} {now later : Instant} {t : Ticker}

theorem of_every (timer : Ticker.every period = .ok t) : t.Timely period now := by
  unfold Ticker.every at timer
  split at timer
  · cases timer
  · cases timer
    exact ⟨rfl, Nat.zero_le _⟩

theorem mono (h : t.Timely period now) (le : now ≤ later) : t.Timely period later :=
  ⟨h.every, Nat.le_trans h.due (Nat.add_le_add_right le period)⟩

/-- A tick that is seen when it is due makes the next one due after a period at most. -/
theorem advance (h : t.Timely period now) (due : t.due ≤ now) :
    (t.advance now).Timely period now := by
  refine ⟨h.every, ?_⟩
  simp only [Ticker.advance, h.every]
  split
  · exact Nat.le_refl _
  · exact Nat.add_le_add_right due period

end Ticker.Timely

namespace Drain

variable {σ ε : Type}

/-- The event hands over what was written, or tries to. -/
def Event.isAttempt : Event ε → Bool
  | .flushed _ => true
  | .closed _ => true
  | .wrote _ _ => false

def Event.isFlush : Event ε → Bool
  | .flushed _ => true
  | _ => false

/-- The event is a flush that succeeded. -/
def Event.handsOver : Event ε → Bool
  | .flushed result => succeeded result
  | _ => false

/-- A record was written and no flush was tried since. -/
def Fresh (events : List (Instant × Event ε)) : Prop :=
  ∃ before e after, events = before ++ e :: after ∧ e.2.acknowledged = true ∧
    ∀ x ∈ after, x.2.isFlush = false

/-- A record was written and no flush has succeeded since. -/
def Uncovered (events : List (Instant × Event ε)) : Prop :=
  ∃ before e after, events = before ++ e :: after ∧ e.2.acknowledged = true ∧
    ∀ x ∈ after, x.2.handsOver = false

/-- Calls bring the sink from one state to another. -/
def Reached (sink : RecordSink σ ε) (first s : σ) : Prop := ∃ calls, Performed sink first calls s

/-- Writing takes no time, wherever calls bring the sink. -/
def Prompt (sink : RecordSink σ ε) (first : σ) : Prop :=
  ∀ s, Reached sink first s → sink.writeTime s = 0

/-- A scripted sink takes no time when the script says so. -/
theorem prompt_scripted {first : ScriptedSink} (none : first.writeTimes = []) :
    Prompt ScriptedSink.sink first := by
  rintro s ⟨calls, performed⟩
  have still : s.writeTimes = [] := by
    induction performed with
    | nil => exact none
    | wrote before ih => simp [ScriptedSink.sink, ih]
    | flushed before ih => exact ih
    | closed before ih => exact ih
  simp [ScriptedSink.sink, still]

/-! ## One call after the other -/

/-- What is drained from messages that are still to come, one call of the sink after the other.
While something is written and not flushed, a message or the end is not seen later than the tick. -/
inductive Drains (sink : RecordSink σ ε) (ended : Instant) :
    State σ → List (Instant × Message) → List (Instant × Event ε) → Prop where
  | tick {s : State σ} {messages : List (Instant × Message)} {events : List (Instant × Event ε)}
      (dirty : s.dirty = true) (rest : Drains sink ended (flushStep sink s).1 messages events) :
      Drains sink ended s messages ((flushStep sink s).2 :: events)
  | write {s : State σ} {arrival : Instant} {m : Message} {messages : List (Instant × Message)}
      {events : List (Instant × Event ε)}
      (first : s.dirty = true → max s.now arrival ≤ max s.now s.ticker.due)
      (rest : Drains sink ended (writeStep sink s arrival m).1 messages events) :
      Drains sink ended s ((arrival, m) :: messages) ((writeStep sink s arrival m).2 :: events)
  | close {s : State σ} (first : s.dirty = true → max s.now ended ≤ max s.now s.ticker.due) :
      Drains sink ended s [] (closeStep sink s ended).events

variable {sink : RecordSink σ ε} {first : σ} {ended : Instant} {s : State σ} {period : Duration}
  {messages : List (Instant × Message)} {before after events : List (Instant × Event ε)}
  {e last : Instant × Event ε}

/-- What is seen first is not later than the tick. -/
theorem le_of_tickFirst_eq_false {next : Instant} {choice : Bool}
    (first : tickFirst s next choice = false) (dirty : s.dirty = true) :
    max s.now next ≤ max s.now s.ticker.due := by
  simp only [tickFirst, dirty, Bool.true_and, Bool.or_eq_false_iff,
    decide_eq_false_iff_not] at first
  exact Nat.le_of_not_lt first.1

theorem drains_runFrom (sink : RecordSink σ ε) (s : State σ) (choices : Nat → Bool)
    (ended : Instant) (messages : List (Instant × Message)) :
    Drains sink ended s messages (runFrom sink s choices ended messages).events := by
  have clean : ∀ s : State σ, (flushStep sink s).1.dirty = true → False := fun s dirty => by
    cases dirty
  induction messages generalizing s choices with
  | nil =>
    unfold runFrom
    split
    · next first =>
      exact .tick (Bool.and_eq_true_iff.1 first).1 (.close fun dirty => (clean s dirty).elim)
    · next first => exact .close (le_of_tickFirst_eq_false (by simpa using first))
  | cons head messages ih =>
    obtain ⟨arrival, m⟩ := head
    unfold runFrom
    split
    · next first =>
      exact .tick (Bool.and_eq_true_iff.1 first).1
        (.write (fun dirty => (clean s dirty).elim) (ih _ _))
    · next first => exact .write (le_of_tickFirst_eq_false (by simpa using first)) (ih _ _)

/-- Something is written and not flushed after an event. -/
def Event.leaves (dirty : Bool) : Event ε → Bool
  | .wrote _ result => dirty || succeeded result
  | .flushed _ => false
  | .closed _ => dirty

/-- What holds between the calls: calls brought the sink where it is, and the next tick is due after
a period at most. -/
structure Poised (sink : RecordSink σ ε) (first : σ) (period : Duration) (s : State σ) : Prop where
  reached : Reached sink first s.sink
  timely : s.ticker.Timely period s.now

theorem Poised.flush (h : Poised sink first period s) :
    Poised sink first period (flushStep sink s).1 := by
  obtain ⟨calls, performed⟩ := h.reached
  exact ⟨⟨_, performed.flushed⟩,
    (h.timely.mono (Nat.le_max_left _ s.ticker.due)).advance (Nat.le_max_right ..)⟩

theorem Poised.write (h : Poised sink first period s) (arrival : Instant) (m : Message) :
    Poised sink first period (writeStep sink s arrival m).1 := by
  obtain ⟨calls, performed⟩ := h.reached
  exact ⟨⟨_, performed.wrote (m := m)⟩,
    h.timely.mono (Nat.le_trans (Nat.le_max_left ..) (Nat.le_add_right ..))⟩

theorem poised_start {ticker : Ticker} (timer : Ticker.every period = .ok ticker) :
    Poised sink first period { ticker, sink := first } :=
  ⟨⟨[], .nil first⟩, .of_every timer⟩

/-- A call of the sink is the last one, which closes it, or others follow it. -/
theorem Drains.next (h : Drains sink ended s messages (e :: events))
    (poised : Poised sink first period s) :
    (e.2.isClose = true ∧ events = []) ∨
      ∃ s' messages', Drains sink ended s' messages' events ∧ Poised sink first period s' ∧
        s'.now = e.1 ∧ s'.dirty = e.2.leaves s.dirty ∧ (e.2.isFlush = true → s.dirty = true) := by
  cases h with
  | tick dirty rest => exact .inr ⟨_, _, rest, poised.flush, rfl, rfl, fun _ => dirty⟩
  | @write _ arrival m messages _ first rest =>
    exact .inr ⟨_, _, rest, poised.write arrival m, rfl, rfl, fun flush => by cases flush⟩
  | close first => exact .inl ⟨rfl, rfl⟩

/-- Something is written and not flushed after some events. -/
def dirtyAfter (dirty : Bool) (events : List (Instant × Event ε)) : Bool :=
  events.foldl (fun dirty e => e.2.leaves dirty) dirty

/-- Before every call of the sink it is known what is written and not flushed. -/
theorem Drains.of_append (h : Drains sink ended s messages (before ++ after)) (more : after ≠ [])
    (poised : Poised sink first period s) :
    ∃ s' messages', Drains sink ended s' messages' after ∧ Poised sink first period s' ∧
      s'.dirty = dirtyAfter s.dirty before := by
  induction before generalizing s messages with
  | nil => exact ⟨s, messages, h, poised, rfl⟩
  | cons e before ih =>
    rcases h.next poised with ⟨-, none⟩ | ⟨s', messages', rest, poised', -, dirty, -⟩
    · exact absurd (List.append_eq_nil_iff.1 none).2 more
    · obtain ⟨s₂, messages₂, rest, poised₂, same⟩ := ih rest poised'
      exact ⟨s₂, messages₂, rest, poised₂, by rw [same, dirty]; rfl⟩

/-- Something is written and not flushed when a record was written since the last flush. -/
theorem dirtyAfter_iff : dirtyAfter false events = true ↔ Fresh events := by
  induction events using List.reverseRecOn with
  | nil => simp [dirtyAfter, Fresh]
  | append_singleton events e ih =>
    have last : dirtyAfter false (events ++ [e]) = e.2.leaves (dirtyAfter false events) := by
      simp [dirtyAfter]
    have split : Fresh (events ++ [e]) ↔
        e.2.acknowledged = true ∨ e.2.isFlush = false ∧ Fresh events := by
      constructor
      · rintro ⟨before, w, after, parts, acknowledged, calm⟩
        rcases List.eq_nil_or_concat after with rfl | ⟨after, x, rfl⟩
        · obtain ⟨-, same⟩ := List.append_inj' parts rfl
          cases same
          exact .inl acknowledged
        · rw [List.concat_eq_append, ← List.cons_append, ← List.append_assoc] at parts
          obtain ⟨rfl, same⟩ := List.append_inj' parts rfl
          cases same
          refine .inr ⟨calm e (by simp), before, w, after, rfl, acknowledged, fun y mem => ?_⟩
          exact calm y (by simp [mem])
      · rintro (acknowledged | ⟨calm, before, w, after, rfl, acknowledged, others⟩)
        · exact ⟨events, e, [], rfl, acknowledged, by simp⟩
        · refine ⟨before, w, after ++ [e], by simp, acknowledged, fun y mem => ?_⟩
          rcases List.mem_append.1 mem with old | new
          · exact others y old
          · rw [List.mem_singleton.1 new]
            exact calm
    rw [last, split, ← ih]
    obtain ⟨t, event⟩ := e
    cases event <;> simp [Event.leaves, Event.acknowledged, Event.isFlush, or_comm]

/-! ## The next flush -/

/-- While something is written and not flushed, the next flush, or the end, is not later than the
tick, if writing takes no time. -/
theorem Drains.exists_attempt (h : Drains sink ended s messages events)
    (prompt : Prompt sink first) (reached : Reached sink first s.sink) (dirty : s.dirty = true) :
    ∃ e ∈ events, e.2.isAttempt = true ∧ s.now ≤ e.1 ∧ e.1 ≤ max s.now s.ticker.due := by
  induction h with
  | tick => exact ⟨_, List.mem_cons_self .., rfl, Nat.le_max_left .., Nat.le_refl _⟩
  | @write s arrival m messages events first rest ih =>
    have now : (writeStep sink s arrival m).1.now = max s.now arrival := by
      simp [writeStep, prompt _ reached]
    obtain ⟨calls, performed⟩ := reached
    obtain ⟨e, mem, attempt, later, soon⟩ := ih ⟨_, performed.wrote (m := m)⟩
      (by simp [writeStep, dirty])
    rw [now] at later soon
    refine ⟨e, List.mem_cons_of_mem _ mem, attempt, Nat.le_trans (Nat.le_max_left ..) later, ?_⟩
    exact Nat.le_trans soon (Nat.max_le.2 ⟨first dirty, Nat.le_max_right ..⟩)
  | close first => exact ⟨_, List.mem_cons_self .., rfl, Nat.le_max_left .., first dirty⟩

variable {ticker : Ticker} {choices : Nat → Bool} {trace : Trace σ ε}

/-- The events of a run are what is drained from its start. -/
theorem drains_of_split (ran : run sink first ticker choices messages ended = trace)
    (split : trace.events = before ++ after) :
    Drains sink ended { ticker, sink := first } messages (before ++ after) := by
  rw [← split, ← ran]
  exact drains_runFrom sink { ticker, sink := first } choices ended messages

/-- After an event since which something is not flushed, the next flush, or the end, comes within a
period. -/
theorem exists_attempt_of_run (timer : Ticker.every period = .ok ticker)
    (prompt : Prompt sink first) (ran : run sink first ticker choices messages ended = trace)
    (split : trace.events = before ++ last :: after)
    (going : last.2.isClose = false) (fresh : Fresh (before ++ [last])) :
    ∃ e ∈ after, e.2.isAttempt = true ∧ last.1 ≤ e.1 ∧ e.1 ≤ last.1 + period := by
  have drains := drains_of_split ran split
  obtain ⟨s, rest, drains, poised, dirty⟩ := drains.of_append (by simp) (poised_start timer)
  rcases drains.next poised with ⟨close, -⟩ | ⟨s', rest', drains', poised', now, dirty', -⟩
  · rw [going] at close
    cases close
  · have pending : s'.dirty = true := by
      rw [dirty', dirty, ← dirtyAfter_iff.2 fresh]
      simp [dirtyAfter]
    obtain ⟨e, mem, attempt, later, soon⟩ := drains'.exists_attempt prompt poised'.reached pending
    have due := poised'.timely.due
    rw [now] at later soon due
    exact ⟨e, mem, attempt, later,
      Nat.le_trans soon (Nat.max_le.2 ⟨Nat.le_add_right .., due⟩)⟩

/-- A flush is made only when a record was written since the last one. -/
theorem fresh_of_flush (timer : Ticker.every period = .ok ticker)
    (ran : run sink first ticker choices messages ended = trace)
    (split : trace.events = before ++ e :: after) (flush : e.2.isFlush = true) : Fresh before := by
  have drains := drains_of_split ran split
  have start : Poised sink first period { ticker, sink := first } := poised_start timer
  obtain ⟨s, rest, drains, poised, dirty⟩ := drains.of_append (by simp) start
  rcases drains.next poised with ⟨close, -⟩ | ⟨-, -, -, -, -, -, due⟩
  · obtain ⟨t, event⟩ := e
    cases event with
    | flushed result => cases close
    | _ => cases flush
  · exact dirtyAfter_iff.1 (dirty ▸ due flush)

/-! ## The main statements -/

/-- **Written records are flushed in time.**  While writing takes no time: whatever arrives when and
whatever is chosen, a record that was written is followed by a flush, or by the end, within one
period of the ticker.  A flush is made only when a record was written since the last one.  The events
are the calls that the sink gets, in order and with what they come to, and nothing else is done to
it. -/
theorem flushes_of_run (timer : Ticker.every period = .ok ticker) (prompt : Prompt sink first)
    (ran : run sink first ticker choices messages ended = trace) :
    Performed sink first (trace.events.map Prod.snd) trace.final.sink ∧
      (∀ before w m after, trace.events = before ++ (w, .wrote m (.ok ())) :: after →
        ∃ e ∈ after, e.2.isAttempt = true ∧ w ≤ e.1 ∧ e.1 ≤ w + period) ∧
      ∀ before t result after,
        trace.events = before ++ (t, .flushed result) :: after → Fresh before := by
  obtain ⟨-, performed, -⟩ := messagesOf_run ran
  refine ⟨performed, ?_, ?_⟩
  · intro before w m after split
    exact exists_attempt_of_run timer prompt ran split rfl ⟨before, _, [], rfl, rfl, by simp⟩
  · intro before t result after split
    exact fresh_of_flush timer ran split rfl

/-- The messages of a burst, and one after a gap, for which the ticker is due long before. -/
def bursts : Trace ScriptedSink String :=
  run ScriptedSink.sink {} { period := Duration.millis 100 } (fun _ => false)
    [(Duration.millis 10, ⟨"feed:1", [1], 0⟩), (Duration.millis 10, ⟨"feed:2", [2], 0⟩),
      (Duration.millis 310, ⟨"feed:1", [3], 0⟩)] (Duration.millis 1000)

/-- The first message is flushed in time, although the second one is written before that, and every
flush follows a record that was written since the last one. -/
theorem flushes_of_run_bursts :
    ∃ first rest last, bursts.events = first :: rest ++ [last] ∧
      (∃ e ∈ rest ++ [last], e.2.isAttempt = true ∧ Duration.millis 10 ≤ e.1 ∧
        e.1 ≤ Duration.millis 10 + Duration.millis 100) ∧
      ∃ before t, first :: rest = before ++ [(t, .flushed (.ok ()))] ∧ Fresh before := by
  have timer : Ticker.every (Duration.millis 100) = .ok { period := Duration.millis 100 } := rfl
  have prompt : Prompt ScriptedSink.sink {} := prompt_scripted rfl
  have wrote : bursts.events =
      [] ++ (Duration.millis 10, .wrote ⟨"feed:1", [1], 0⟩ (.ok ())) :: _ := rfl
  have flushed : bursts.events = [_, _, _, _] ++ (_, .flushed (.ok ())) :: [_] := rfl
  obtain ⟨-, soon, fresh⟩ := flushes_of_run timer prompt (show _ = bursts from rfl)
  exact ⟨_, [_, _, _, _], _, rfl, soon _ _ _ _ wrote, [_, _, _, _], _, rfl, fresh _ _ _ _ flushed⟩

theorem Event.acknowledged_of_isFlush {event : Event ε} (flush : event.isFlush = true) :
    event.acknowledged = false := by
  cases event <;> first | rfl | cases flush

/-- After a flush, nothing is fresh but what is written later. -/
theorem acknowledged_of_fresh {between : List (Instant × Event ε)}
    (fresh : Fresh (before ++ last :: between)) (flush : last.2.isFlush = true) :
    ∃ e ∈ between, e.2.acknowledged = true := by
  obtain ⟨xs, e, ys, parts, acknowledged, calm⟩ := fresh
  -- the flush does not come after the record, so the record comes after the flush
  have other : last ≠ e := by
    rintro rfl
    rw [Event.acknowledged_of_isFlush flush] at acknowledged
    cases acknowledged
  rcases List.append_eq_append_iff.1 parts with ⟨more, -, parts⟩ | ⟨more, -, parts⟩
  · cases more with
    | nil => exact absurd (List.cons.inj parts).1 other
    | cons x more =>
      obtain ⟨-, rfl⟩ := List.cons.inj parts
      exact ⟨e, by simp, acknowledged⟩
  · cases more with
    | nil => exact absurd (List.cons.inj parts).1.symm other
    | cons x more =>
      obtain ⟨-, rfl⟩ := List.cons.inj parts
      rw [calm last (by simp)] at flush
      cases flush

/-- **Flushes that fail are not repeated.**  While writing takes no time, and whichever flushes
fail: after every event but the end, a record that was written and for which no flush was tried
since is followed by a flush, or by the end, within one period of that event.  After a flush, also
after one that failed, the next one is made only when another record was written in between.  The
events are the calls that the sink gets. -/
theorem attempts_of_run (timer : Ticker.every period = .ok ticker) (prompt : Prompt sink first)
    (ran : run sink first ticker choices messages ended = trace)
    (split : trace.events = before ++ last :: after) (going : last.2.isClose = false) :
    Performed sink first (trace.events.map Prod.snd) trace.final.sink ∧
      (Fresh (before ++ [last]) →
        ∃ e ∈ after, e.2.isAttempt = true ∧ last.1 ≤ e.1 ∧ e.1 ≤ last.1 + period) ∧
      (last.2.isFlush = true → ∀ between e rest, after = between ++ e :: rest →
        e.2.isFlush = true → ∃ x ∈ between, x.2.acknowledged = true) := by
  obtain ⟨-, performed, -⟩ := messagesOf_run ran
  refine ⟨performed, exists_attempt_of_run timer prompt ran split going, ?_⟩
  intro flush between e rest parts next
  rw [parts, ← List.cons_append, ← List.append_assoc] at split
  exact acknowledged_of_fresh (fresh_of_flush timer ran split next) flush

/-- What is drained when the first flush fails: the first record comes at the start, and the
messages end much later. -/
def brokenFlush (others : List (Instant × Message)) : Trace ScriptedSink String :=
  run ScriptedSink.sink { failingFlushes := [0] } { period := Duration.millis 100 } (fun _ => false)
    ((Duration.millis 10, ⟨"feed:1", [1], 0⟩) :: others) (Duration.millis 1000)

/-- The first record is followed by the flush that fails, and the next one comes only after the
second record was written. -/
theorem attempts_of_run_broken :
    ∃ w failed after, (brokenFlush [(Duration.millis 400, ⟨"feed:1", [2], 0⟩)]).events =
        w :: failed :: after ∧
      (∃ e ∈ failed :: after, e.2.isAttempt = true ∧ w.1 ≤ e.1 ∧
        e.1 ≤ w.1 + Duration.millis 100) ∧
      failed.2.isFlush = true ∧ failed.2.handsOver = false ∧
      ∀ between e rest, after = between ++ e :: rest → e.2.isFlush = true →
        ∃ x ∈ between, x.2.acknowledged = true := by
  have timer : Ticker.every (Duration.millis 100) = .ok { period := Duration.millis 100 } := rfl
  have prompt : Prompt ScriptedSink.sink { failingFlushes := [0] } := prompt_scripted rfl
  have wrote : (brokenFlush [(Duration.millis 400, ⟨"feed:1", [2], 0⟩)]).events =
      [] ++ _ :: _ := rfl
  have failed : (brokenFlush [(Duration.millis 400, ⟨"feed:1", [2], 0⟩)]).events =
      [_] ++ _ :: _ := rfl
  obtain ⟨-, soon, -⟩ := attempts_of_run timer prompt rfl wrote rfl
  obtain ⟨-, -, again⟩ := attempts_of_run timer prompt rfl failed rfl
  exact ⟨_, _, _, rfl, soon ⟨[], _, [], rfl, rfl, by simp⟩, rfl, rfl, again rfl⟩

/-- When a flush fails and no other record comes, what was written is not flushed before the end, a
long time after the next tick is due. -/
theorem unflushed_of_broken :
    ¬∀ before last after, (brokenFlush []).events = before ++ last :: after →
      last.2.isClose = false → Uncovered (before ++ [last]) →
      ∃ e ∈ after, e.2.isAttempt = true ∧ e.1 ≤ last.1 + Duration.millis 100 := by
  intro retries
  have failed : (brokenFlush []).events =
      [_] ++ (Duration.millis 10, .flushed (.error ScriptedSink.failure)) :: [_] := rfl
  obtain ⟨e, mem, -, soon⟩ := retries _ _ _ failed rfl
    ⟨[], _, [_], rfl, rfl, by simp [Event.handsOver, succeeded]⟩
  obtain rfl := List.mem_singleton.1 mem
  revert soon
  decide

end Drain

end FeedCapture
