import Mathlib.Data.List.Induction
import FeedCapture.Bus.Handles
import FeedCapture.Proofs.Exchange.Ends

/-!
# How a bus ends for those who hold it

The bus itself holds the receiver, and so do all receiving handles and the receives that wait.  They
can be dropped in any order, and so can the senders and the deliveries that wait, which all hold the
sending side.

## Main definitions

* `Exchange.Handles.Deserted` — the bus and all handles are dropped and no receive waits
* `Exchange.Handles.Ready` — what holds after any steps, when every task waits

The main statement is `Exchange.Handles.ends_of_run`.
-/

namespace FeedCapture.Exchange

namespace Handles

variable {h : Handles} {steps : List Step} {s : Step} {answers : List Answer}

/-! ## Steps with handles -/

/-- The bus and all receiving handles are dropped, and no receive waits. -/
structure Deserted (h : Handles) : Prop where
  bus : h.exchange.hasBus = false
  streams : h.streams = []
  receives : h.exchange.receives = []

/-- What the direct part of a step does to the exchange: what a step of the exchange does, or the
first handle is held, where the bus kept the receiver. -/
inductive Course (h : Handles) (s : Step) : Prop
  | base (b : Exchange.Step) (acted : (h.act s).1.exchange = (h.exchange.act b).1)
      (done : (h.act s).2.done = (h.exchange.act b).2.done)
      (calls : calls [b] = calls s.bus?.toList)
  | first (bus : h.exchange.hasBus = true)
      (acted : (h.act s).1.exchange = { h.exchange with hasStream := true })
      (done : (h.act s).2.done = []) (none : s.bus? = none)

/-- What holds after any steps, when every task waits. -/
structure Ready (capacity : Nat) (steps : List Step) (h : Handles) (answers : List Answer) :
    Prop where
  sound : Sound capacity ((calls (steps.filterMap Step.bus?)).map Prod.fst) h.exchange
  waits : h.exchange.waits = true
  /-- The receiver ends only when nobody holds it. -/
  held : h.exchange.bus.receiving = false → h.exchange.hasReceiver = false
  streams : h.exchange.hasStream = !h.streams.isEmpty
  bus : h.exchange.hasBus = false ↔ .bus .dropBus ∈ steps
  own : h.exchange.bus.ownSender = false ↔ .bus .close ∈ steps ∨ .bus .dropBus ∈ steps
  /-- Where a receive saw the end, nobody can send. -/
  isOver : ∀ a ∈ answers, ∀ id, (id, .ended) ∈ a.done → h.exchange.Over

theorem hasStream_eq (held : h.streams ≠ []) (streams : h.exchange.hasStream = !h.streams.isEmpty) :
    { h.exchange with hasStream := true } = h.exchange := by
  have held : h.exchange.hasStream = true := by simp [streams, held]
  rw [← held]

/-- Holding one more handle changes the exchange only where none was held. -/
theorem course_of_act (streams : h.exchange.hasStream = !h.streams.isEmpty) (s : Step) :
    h.Course s := by
  -- asking whether the bus is closed changes nothing
  have idle : ∀ {s : Step}, (h.act s).1.exchange = h.exchange → (h.act s).2.done = [] →
      s.bus? = none → h.Course s := fun acted done none =>
    .base .isClosed acted done (by simp [none, Exchange.calls])
  have more : ∀ id, (h.hold id).exchange = { h.exchange with hasStream := true } := fun _ => rfl
  cases s with
  | bus b => exact .base b rfl rfl rfl
  | stream id =>
    cases bus : h.exchange.hasBus with
    | false => exact idle (by simp [Handles.act, bus]) (by simp [Handles.act, bus]) rfl
    | true =>
      exact .first bus (by simp [Handles.act, bus, more]) (by simp [Handles.act, bus]) rfl
  | cloneStream id source =>
    by_cases held : source ∈ h.streams
    · have same := hasStream_eq (List.ne_nil_of_mem held) streams
      exact idle (by simp [Handles.act, held, more, same]) (by simp [Handles.act, held]) rfl
    · exact idle (by simp [Handles.act, held]) (by simp [Handles.act, held]) rfl
  | dropStream id =>
    by_cases rest : (h.streams.filter fun s => s ≠ id) = []
    · refine .base .dropStream ?_ rfl rfl
      simp only [Handles.act, keep, rest]
      rfl
    · have some : h.streams ≠ [] := by
        rintro none
        simp [none] at rest
      have same := hasStream_eq some streams
      refine idle ?_ rfl rfl
      simp only [Handles.act, keep, List.isEmpty_eq_false_iff.2 rest, Bool.not_false]
      exact same

/-- A step settles what its direct part left. -/
theorem step_eq (h : Handles) (s : Step) :
    (h.step s).1.exchange = (h.act s).1.exchange.settle.1 ∧
      (h.step s).1.streams = (h.act s).1.streams ∧
      (h.step s).2.done = (h.act s).2.done ++ (h.act s).1.exchange.settle.2 ∧
      (h.step s).2.reply = (h.act s).2.reply :=
  ⟨rfl, rfl, rfl, rfl⟩

theorem streams_act (streams : h.exchange.hasStream = !h.streams.isEmpty) (s : Step) :
    (h.act s).1.exchange.hasStream = !(h.act s).1.streams.isEmpty := by
  cases s with
  | bus b =>
    have after := (hasBus_act h.exchange b).2
    by_cases dropped : b = .dropStream
    · simp only [dropped, ne_eq, not_true_eq_false, decide_false, Bool.and_false] at after
      simp [Handles.act, dropped, after]
    · simp only [ne_eq, dropped, not_false_eq_true, decide_true, Bool.and_true] at after
      simp [Handles.act, dropped, after, streams]
  | stream id =>
    simp only [Handles.act]
    split
    · rfl
    · exact streams
  | cloneStream id source =>
    simp only [Handles.act]
    split
    · rfl
    · exact streams
  | dropStream id => rfl

/-- The bus is dropped, and its own sender is given up, by steps of the exchange only. -/
theorem bus_act (h : Handles) (s : Step) :
    ((h.act s).1.exchange.hasBus = false ↔ h.exchange.hasBus = false ∨ s = .bus .dropBus) ∧
      ((h.act s).1.exchange.bus.ownSender = false ↔ h.exchange.bus.ownSender = false ∨
        s = .bus .close ∧ h.exchange.hasBus = true ∨ s = .bus .dropBus) := by
  cases s with
  | bus b =>
    have bus := (hasBus_act h.exchange b).1
    have own := ownSender_act h.exchange b
    refine ⟨?_, by simpa [Handles.act] using own⟩
    show (h.exchange.act b).1.hasBus = false ↔ _
    rw [bus, Bool.and_eq_false_iff]
    simp
  | stream id =>
    simp only [Handles.act]
    split <;> simp [hold, keep]
  | cloneStream id source =>
    simp only [Handles.act]
    split <;> simp [hold, keep]
  | dropStream id => simp [Handles.act, keep]

theorem deserted_iff (streams : h.exchange.hasStream = !h.streams.isEmpty) :
    h.Deserted ↔ h.exchange.hasReceiver = false := by
  simp only [Exchange.hasReceiver, streams, Bool.or_eq_false_iff, Bool.not_eq_eq_eq_not,
    Bool.not_false, List.isEmpty_iff]
  exact ⟨fun d => ⟨⟨d.bus, d.streams⟩, d.receives⟩, fun none => ⟨none.1.1, none.1.2, none.2⟩⟩

namespace Ready

variable {capacity : Nat}

/-- Nothing goes on because a handle is held. -/
theorem withStream {made : List String} {e : Exchange} (sound : Sound capacity made e)
    (waits : e.waits = true) :
    Sound capacity made { e with hasStream := true } ∧
      ({ e with hasStream := true } : Exchange).waits = true := by
  obtain ⟨still, received, -⟩ := waits_iff.1 waits
  refine ⟨sound.withBus _ rfl rfl sound.tidy sound.lost rfl, waits_iff.2 ⟨fun d hd => ?_, ?_, ?_⟩⟩
  · exact look?_eq_none_iff.2 (look?_eq_none_iff (e := e).1 (still d hd))
  · exact received
  · exact .inl (by simp [Exchange.hasReceiver])

/-- A step comes to what a step of the exchange comes to, or the first handle is held and nothing
else happens. -/
theorem course (ready : Ready capacity steps h answers) (s : Step) :
    (∃ b, (h.act s).1.exchange = (h.exchange.act b).1 ∧
      (h.step s).1.exchange = (h.exchange.step b).1 ∧
      (h.step s).2.done = (h.exchange.step b).2.done ∧ calls [b] = calls s.bus?.toList) ∨
    (h.exchange.hasBus = true ∧ s.bus? = none ∧ (h.step s).2.done = [] ∧
      (h.act s).1.exchange = { h.exchange with hasStream := true } ∧
      (h.step s).1.exchange = { h.exchange with hasStream := true }) := by
  obtain ⟨exchange, -, done, -⟩ := step_eq h s
  cases course_of_act ready.streams s with
  | base b acted directly calls =>
    refine .inl ⟨b, acted, ?_, ?_, calls⟩
    · rw [exchange, acted]
      rfl
    · rw [done, directly, acted]
      rfl
  | first bus acted directly none =>
    obtain ⟨sound, waits⟩ := withStream ready.sound ready.waits
    have settled := settle_of_waits sound waits
    refine .inr ⟨bus, none, ?_, acted, ?_⟩
    · rw [done, directly, acted, settled]
      rfl
    · rw [exchange, acted, settled]

/-- A receive sees the end exactly when it is in line after the direct part of a step and nobody can
send then. -/
theorem mem_ended_iff (ready : Ready capacity steps h answers) (some_place : 0 < capacity)
    (s : Step) {id : String} : (id, .ended) ∈ (h.step s).2.done ↔
      id ∈ (h.act s).1.exchange.receives ∧ (h.act s).1.exchange.Over := by
  rcases ready.course s with ⟨b, acted, -, done, -⟩ | ⟨-, -, done, acted, -⟩
  · rw [acted, done]
    exact ready.sound.mem_ended_iff some_place ready.waits b
  · rw [acted, done]
    refine iff_of_false List.not_mem_nil fun ⟨line, isOver⟩ => ?_
    have sender := (waits_iff.1 (withStream ready.sound ready.waits).2).2.1.resolve_left
      (List.ne_nil_of_mem line)
    rw [(over_iff.1 isOver).2.1] at sender
    cases sender.2

/-- Where nobody can send, nobody can after a step. -/
theorem over_step (ready : Ready capacity steps h answers) (isOver : h.exchange.Over) (s : Step) :
    (h.step s).1.exchange.Over := by
  rcases ready.course s with ⟨b, -, next, -⟩ | ⟨-, -, -, -, next⟩
  · rw [next]
    exact (isOver.step b).1
  · rw [next]
    exact ⟨isOver.empty, isOver.own, isOver.senders, isOver.deliveries⟩

/-- Where nobody can send, every receive that starts sees the end, no message is received, and
nobody gets a sender. -/
theorem over_answer (ready : Ready capacity steps h answers) (isOver : h.exchange.Over) (s : Step) :
    (∀ id, s = .bus (.receive id) → (h.step s).2.reply = .ok →
      (id, .ended) ∈ (h.step s).2.done) ∧
    (∀ id m, (id, .received m) ∉ (h.step s).2.done) ∧
    (∀ m, (h.step s).2.reply ≠ .got (some m)) ∧
    (∀ id source, s = .bus (.sender id) ∨ s = .bus (.cloneSender id source) →
      (h.step s).2.reply ≠ .ok) := by
  refine ⟨?_, fun id m => ?_, fun m => ?_, ?_⟩
  · rintro id rfl started
    exact (isOver.step (.receive id)).2.2.2.1 id rfl started
  · rcases ready.course s with ⟨b, -, -, done, -⟩ | ⟨-, -, done, -⟩
    · rw [done]
      exact (isOver.step b).2.1 id m
    · rw [done]
      exact List.not_mem_nil
  · rw [(step_eq h s).2.2.2]
    cases s with
    | bus b => exact (isOver.step b).2.2.1 m
    | dropStream id => simp [Handles.act]
    | _ =>
      simp only [Handles.act]
      split <;> simp
  · rintro id source (rfl | rfl)
    · exact (isOver.step (.sender id)).2.2.2.2 (.inl ⟨id, rfl⟩)
    · exact (isOver.step (.cloneSender id source)).2.2.2.2 (.inr ⟨id, source, rfl⟩)

/-- The bus's own sender is given up when the bus was closed or dropped. -/
theorem own_act (ready : Ready capacity steps h answers) (s : Step) :
    (h.act s).1.exchange.bus.ownSender = false ↔
      .bus .close ∈ steps ++ [s] ∨ .bus .dropBus ∈ steps ++ [s] := by
  have bus := ready.bus
  rw [(bus_act h s).2, ready.own]
  by_cases dropped : .bus .dropBus ∈ steps
  · simp [dropped]
  · have held : h.exchange.hasBus = true := by simpa [dropped] using bus
    simp only [dropped, held, and_true, or_false, List.mem_append, List.mem_singleton,
      false_or, or_assoc, eq_comm]

/-- Closing tells whether nobody closed the bus before. -/
theorem reply_close (ready : Ready capacity steps h answers) :
    (h.step (.bus .close)).2.reply =
      if .bus .dropBus ∈ steps then .noBus else .flag (.bus .close ∉ steps) := by
  have bus := ready.bus
  have own := ready.own
  show (h.exchange.act .close).2.reply = _
  by_cases dropped : .bus .dropBus ∈ steps
  · have none : h.exchange.hasBus = false := bus.2 dropped
    simp [Exchange.act, none, dropped]
  · have held : h.exchange.hasBus = true := by simpa [dropped] using bus
    have first : h.exchange.bus.ownSender = decide (.bus .close ∉ steps) := by
      by_cases closed : .bus .close ∈ steps
      · simpa [closed] using own
      · simpa [closed, dropped] using own
    simp [Exchange.act, Bus.close, held, dropped, first]

/-- The names that deliveries are started under. -/
theorem names_concat (steps : List Step) (s : Step) :
    (calls ((steps ++ [s]).filterMap Step.bus?)).map Prod.fst =
      (calls (steps.filterMap Step.bus?)).map Prod.fst ++
        (calls s.bus?.toList).map Prod.fst := by
  rw [List.filterMap_append, calls_append, List.map_append]
  cases s <;> rfl

/-- A name that is used for one more delivery was not used before. -/
theorem fresh {b : Exchange.Step}
    (distinct : ((calls ((steps ++ [s]).filterMap Step.bus?)).map Prod.fst).Nodup)
    (same : calls [b] = calls s.bus?.toList) : ∀ id ∈ (calls [b]).map Prod.fst,
      id ∉ (calls (steps.filterMap Step.bus?)).map Prod.fst := by
  rw [names_concat, ← same] at distinct
  exact fun _ new old => List.disjoint_of_nodup_append distinct old new

protected theorem step (ready : Ready capacity steps h answers) (some_place : 0 < capacity)
    (distinct : ((calls ((steps ++ [s]).filterMap Step.bus?)).map Prod.fst).Nodup) :
    Ready capacity (steps ++ [s]) (h.step s).1 (answers ++ [(h.step s).2]) := by
  -- what holds of the exchange itself, whichever way the step goes
  have kept : Sound capacity ((calls ((steps ++ [s]).filterMap Step.bus?)).map Prod.fst)
        (h.step s).1.exchange ∧ (h.step s).1.exchange.waits = true ∧
      ((h.step s).1.exchange.bus.receiving = false →
        (h.step s).1.exchange.hasReceiver = false) ∧
      Framed (h.act s).1.exchange (h.step s).1.exchange := by
    rcases ready.course s with ⟨b, acted, next, -, same⟩ | ⟨has, none, -, acted, next⟩
    · have fresh := fresh distinct same
      rw [names_concat, ← same] at distinct ⊢
      obtain ⟨turns, one, waits, ran⟩ := ready.sound.exists_turns?_step fresh
      have called : callsIn turns = calls [b] := by rw [callsIn, one]
      have sound := ready.sound.turns ran (called ▸ distinct)
      rw [called] at sound
      rw [acted, next]
      exact ⟨sound, waits, (receiving_of_turns? ready.held ran).1,
        framed_settle (ready.sound.act b fresh)⟩
    · obtain ⟨sound, waits⟩ := withStream ready.sound ready.waits
      rw [acted, next]
      have alive : h.exchange.bus.receiving = true := by
        by_contra silent
        have nobody := ready.held (by simpa using silent)
        simp [Exchange.hasReceiver, has] at nobody
      rw [names_concat]
      refine ⟨sound.mono _, waits, fun silent => ?_, rfl, rfl, rfl, rfl⟩
      rw [alive] at silent
      cases silent
  obtain ⟨sound, waits, held, frame⟩ := kept
  refine ⟨sound, waits, held, ?_, ?_, ?_, ?_⟩
  · rw [frame.hasStream]
    exact streams_act ready.streams s
  · rw [frame.hasBus, (bus_act h s).1, ready.bus]
    simp [eq_comm]
  · rw [frame.ownSender]
    exact ready.own_act s
  · intro a ha id seen
    rcases List.mem_append.1 ha with old | new
    · exact ready.over_step (ready.isOver a old id seen) s
    · rw [List.mem_singleton.1 new] at seen
      have isOver := ((ready.mem_ended_iff some_place s).1 seen).2
      exact (settle_of_over isOver).1

/-- After any steps on a new bus, if no two deliveries are started under one name. -/
theorem of_run {bus : Bus String} (built : Bus.withCapacity String capacity = .ok bus)
    (steps : List Step)
    (distinct : ((calls (steps.filterMap Step.bus?)).map Prod.fst).Nodup) :
    Ready capacity steps ((ofBus bus).run steps).1 ((ofBus bus).run steps).2 := by
  have some_place := Bus.pos_of_withCapacity built
  induction steps using List.reverseRecOn with
  | nil =>
    have sound := sound_ofBus built
    refine ⟨⟨sound.capacity, sound.tidy, sound.lost, sound.line, sound.distinct, sound.known⟩, ?_,
      fun silent => ?_, rfl, ?_, ?_, fun _ none => absurd none List.not_mem_nil⟩
    all_goals rw [Bus.eq_of_withCapacity built] at *
    · rfl
    · cases silent
    · simp [run, ofBus, Exchange.ofBus]
    · simp [run, ofBus, Exchange.ofBus]
  | append_singleton steps s ih =>
    rw [run_concat]
    refine (ih ?_).step some_place distinct
    rw [List.filterMap_append, calls_append, List.map_append] at distinct
    exact distinct.of_append_left

section

variable (ready : Ready capacity steps h answers)
  (after : Ready capacity (steps ++ [s]) (h.step s).1 (answers ++ [(h.step s).2]))
  (distinct : ((calls ((steps ++ [s]).filterMap Step.bus?)).map Prod.fst).Nodup)

include ready after distinct

/-- A delivery ends as closed only when the bus and all handles are dropped and no receive waits. -/
theorem deserted_of_closed {id : String} (closed : (id, .delivery .closed) ∈ (h.step s).2.done) :
    (h.step s).1.Deserted := by
  rw [deserted_iff after.streams]
  rcases ready.course s with ⟨b, -, next, done, same⟩ | ⟨-, -, done, -⟩
  · rw [done] at closed
    rw [next]
    exact ready.sound.hasReceiver_of_closed ready.held (fresh distinct same) closed
  · rw [done] at closed
    cases closed

/-- With the step that drops the last of them every delivery that waits ends as closed. -/
theorem closed_of_deserted (some_place : 0 < capacity) (gone : (h.step s).1.Deserted) :
    (h.step s).1.exchange.deliveries = [] ∧
      ∀ d ∈ h.exchange.deliveries, (d.id, .delivery .closed) ∈ (h.step s).2.done := by
  have nobody := (deserted_iff after.streams).1 gone
  refine ⟨(Sound.gone after.waits nobody).deliveries, fun d waiting => ?_⟩
  rcases ready.course s with ⟨b, -, next, done, same⟩ | ⟨-, -, -, -, next⟩
  · rw [next] at nobody
    rw [done]
    exact ready.sound.closed_of_hasReceiver some_place ready.waits (fresh distinct same) nobody
      waiting
  · rw [next] at nobody
    simp [Exchange.hasReceiver] at nobody

/-- Once they are dropped they stay so, and every delivery that ends does so as closed. -/
theorem deserted_step (gone : h.Deserted) : (h.step s).1.Deserted ∧
    (∀ id outcome, (id, .delivery outcome) ∈ (h.step s).2.done → outcome = .closed) := by
  have nobody := (deserted_iff ready.streams).1 gone
  rw [deserted_iff after.streams]
  rcases ready.course s with ⟨b, -, next, done, same⟩ | ⟨bus, -⟩
  · obtain ⟨turns, -, -, ran⟩ := ready.sound.exists_turns?_step (fresh distinct same)
    rw [next, done]
    refine ⟨?_, ((Sound.gone ready.waits nobody).of_turns? ran).2⟩
    by_contra held
    rw [hasReceiver_of_step (by simpa using held)] at nobody
    cases nobody
  · rw [gone.bus] at bus
    cases bus

end

end Ready

/-! ## Any steps -/

/-- How both sides of a bus end, after any steps if no two deliveries are started under one name,
with one more step to come.

The receiving side: a receive sees the end exactly when it is in line, nothing is queued, the bus's
own sender is given up, no sender is held and no delivery waits; the bus's own sender is given up by
closing the bus or dropping it, and the first of these finds it there.  Once a receive saw the end
every receive that starts does, no message is received, and nobody gets a sender.

The sending side: a delivery ends as closed only when the bus and all receiving handles are dropped
and no receive waits.  With the step that brings this about all deliveries that wait end as closed;
from then on it stays so, every delivery that ends does so as closed, and one that starts ends at
once.  While the bus is held no delivery ends as closed. -/
theorem ends_of_run {capacity : Nat} {bus : Bus String}
    (built : Bus.withCapacity String capacity = .ok bus) (steps : List Step) (s : Step)
    (distinct : ((calls ((steps ++ [s]).filterMap Step.bus?)).map Prod.fst).Nodup) :
    let before := (ofBus bus).run steps
    let h := before.1
    let between := (h.act s).1.exchange
    let next := (h.step s).1
    let answer := (h.step s).2
    ((∀ id, (id, .ended) ∈ answer.done ↔ id ∈ between.receives ∧ between.bus.queue = [] ∧
        between.bus.ownSender = false ∧ between.senders = [] ∧ between.deliveries = []) ∧
      (between.bus.ownSender = false ↔
        .bus .close ∈ steps ++ [s] ∨ .bus .dropBus ∈ steps ++ [s]) ∧
      (s = .bus .close → answer.reply =
        if .bus .dropBus ∈ steps then .noBus else .flag (.bus .close ∉ steps))) ∧
    ((∃ a ∈ before.2, ∃ id, (id, .ended) ∈ a.done) →
      (∀ id, s = .bus (.receive id) → answer.reply = .ok → (id, .ended) ∈ answer.done) ∧
      (∀ id m, (id, .received m) ∉ answer.done) ∧ (∀ m, answer.reply ≠ .got (some m)) ∧
      (∀ id source, s = .bus (.sender id) ∨ s = .bus (.cloneSender id source) →
        answer.reply ≠ .ok)) ∧
    (∀ id, (id, .delivery .closed) ∈ answer.done → next.Deserted) ∧
    (next.Deserted → next.exchange.deliveries = [] ∧
      ∀ d ∈ h.exchange.deliveries, (d.id, .delivery .closed) ∈ answer.done) ∧
    (h.Deserted → next.Deserted ∧
      (∀ id outcome, (id, .delivery outcome) ∈ answer.done → outcome = .closed) ∧
      ∀ id sender token m, s = .bus (.deliver id sender token m) → answer.reply = .ok →
        (id, .delivery .closed) ∈ answer.done) ∧
    (.bus .dropBus ∉ steps ++ [s] → ∀ id, (id, .delivery .closed) ∉ answer.done) := by
  intro before h between next answer
  have some_place := Bus.pos_of_withCapacity built
  have fewer := distinct
  rw [Ready.names_concat] at fewer
  have ready : Ready capacity steps h before.2 := .of_run built steps fewer.of_append_left
  have after := ready.step some_place distinct
  have closed : ∀ id, (id, .delivery .closed) ∈ answer.done → next.Deserted :=
    fun _ => ready.deserted_of_closed after distinct
  refine ⟨⟨fun id => ?_, ?_, ?_⟩, ?_, closed, ready.closed_of_deserted after distinct some_place,
    fun gone => ?_, fun held id last => ?_⟩
  · rw [ready.mem_ended_iff some_place s]
    exact and_congr_right fun _ =>
      ⟨fun o => ⟨o.empty, o.own, o.senders, o.deliveries⟩, fun o => ⟨o.1, o.2.1, o.2.2.1, o.2.2.2⟩⟩
  · exact ready.own_act s
  · rintro rfl
    exact ready.reply_close
  · rintro ⟨a, ha, id, seen⟩
    exact ready.over_answer (ready.isOver a ha id seen) s
  · have nobody := (deserted_iff ready.streams).1 gone
    obtain ⟨stays, all⟩ := ready.deserted_step after distinct gone
    refine ⟨stays, all, ?_⟩
    rintro id sender token m rfl started
    exact (Sound.gone ready.waits nobody).deliver started
  · exact held (after.bus.1 (closed id last).bus)

/-- A bus with one place that is given up while a delivery waits for room; a handle is left. -/
def abandoned : List Step :=
  [.bus (.sender "s"), .bus (.deliver "a" "s" "t" ⟨"feed:1", [1], 0⟩),
    .bus (.deliver "b" "s" "t" ⟨"feed:1", [2], 0⟩), .stream "x", .cloneStream "y" "x",
    .dropStream "x", .bus .dropBus]

/-- With the last handle the delivery that waits ends as closed. -/
theorem ends_of_run_abandoned : ∃ bus, Bus.withCapacity String 1 = .ok bus ∧
    ((calls ((abandoned ++ [Step.dropStream "y"]).filterMap Step.bus?)).map Prod.fst).Nodup ∧
    ((ofBus bus).run abandoned).1.exchange.pendingIds = ["b"] ∧
    ((ofBus bus).run abandoned).1.streams = ["y"] ∧
    (((ofBus bus).run abandoned).1.step (.dropStream "y")).1.Deserted ∧
    ("b", .delivery .closed) ∈
      (((ofBus bus).run abandoned).1.step (.dropStream "y")).2.done := by
  obtain ⟨bus, built⟩ : ∃ bus, Bus.withCapacity String 1 = .ok bus := ⟨_, rfl⟩
  have distinct :
      ((calls ((abandoned ++ [Step.dropStream "y"]).filterMap Step.bus?)).map Prod.fst).Nodup := by
    decide
  obtain ⟨-, -, deserted, -⟩ := ends_of_run built abandoned (.dropStream "y") distinct
  have result : ((ofBus bus).run abandoned).1.exchange.pendingIds = ["b"] ∧
      ((ofBus bus).run abandoned).1.streams = ["y"] ∧
      ("b", .delivery .closed) ∈
        (((ofBus bus).run abandoned).1.step (.dropStream "y")).2.done := by
    cases built
    decide +kernel
  obtain ⟨waiting, held, closed⟩ := result
  exact ⟨bus, built, distinct, waiting, held, deserted "b" closed, closed⟩

end Handles

end FeedCapture.Exchange
