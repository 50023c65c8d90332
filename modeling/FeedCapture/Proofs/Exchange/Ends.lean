import FeedCapture.Proofs.Exchange.Conservation
import FeedCapture.Proofs.Exchange.Waiting

/-!
# How the two sides of a bus end

A receive sees the end when nothing is queued and nobody can send any more, and then so does every
receive.  A delivery ends as closed when nobody holds the receiver any more, and then so does every
delivery.  The bus itself holds the receiver, and so do all handles and the receives that wait.

## Main definitions

* `Exchange.Over` — nothing is queued and nobody can send
* `Exchange.Gone` — nobody receives and no delivery waits
* `Exchange.Handles.Ready` — what holds after any steps, when every task waits

The main statement is `Exchange.Handles.ends_of_run`.
-/

namespace FeedCapture.Exchange

variable {e e' : Exchange} {capacity : Nat} {made : List String} {t : Turn} {turns : List Turn}
  {done : List (String × Outcome)}

/-! ## What the tasks leave alone -/

/-- What only the direct part of a step changes. -/
structure Framed (e e' : Exchange) : Prop where
  hasBus : e'.hasBus = e.hasBus
  hasStream : e'.hasStream = e.hasStream
  senders : e'.senders = e.senders
  ownSender : e'.bus.ownSender = e.bus.ownSender

theorem Turned.framed (h : Turned e t e' done) (quiet : t.step? = none) : Framed e e' := by
  cases h with
  | direct s => cases quiet
  | @stopped d waiting cancelled => exact ⟨rfl, rfl, rfl, (e.bus.frame_leave d.id).2.2⟩
  | @claimed d bus outcome waiting going claim =>
    have frame := e.bus.frame_claim d.id d.message
    rw [claim] at frame
    exact ⟨rfl, rfl, rfl, frame.2.2⟩
  | received line taken => exact ⟨rfl, rfl, rfl, (Bus.frame_of_take? taken).2.2⟩
  | ended line empty gone => exact ⟨rfl, rfl, rfl, rfl⟩
  | letGo gone alive => exact ⟨rfl, rfl, rfl, rfl⟩

theorem framed_of_turns? (ran : e.turns? turns = some (e', done))
    (quiet : turns.filterMap Turn.step? = []) : Framed e e' := by
  refine induction_of_turns? (P := fun xs c _ => xs.filterMap Turn.step? = [] → Framed e c)
    (fun _ => ⟨rfl, rfl, rfl, rfl⟩) (fun {xs t c c' _ _} _ h turn quiet => ?_) ran quiet
  rw [List.filterMap_append, List.append_eq_nil_iff] at quiet
  have before := h quiet.1
  have after := (turned_of_turn? turn).framed (by simpa using quiet.2)
  exact ⟨after.hasBus.trans before.hasBus, after.hasStream.trans before.hasStream,
    after.senders.trans before.senders, after.ownSender.trans before.ownSender⟩

/-- Letting the tasks run changes no handle. -/
theorem framed_settle (h : Sound capacity made e) : Framed e e.settle.1 := by
  obtain ⟨turns, quiet, ran⟩ := exists_turns?_settle h.distinct.of_map h.lost
  exact framed_of_turns? ran quiet

/-! ## When no delivery can go on -/

theorem stopDeliveries_of_still (h : e.Still) : e.stopDeliveries = (e, []) := by
  have none : e.deliveries.filter (fun d => e.tokens.tree.isCancelled d.token) = [] := by
    refine List.filter_eq_nil_iff.2 fun d hd => ?_
    simp [(look?_eq_none_iff.1 (h d hd)).1]
  have all : e.deliveries.filter (fun d => !e.tokens.tree.isCancelled d.token) = e.deliveries := by
    refine List.filter_eq_self.2 fun d hd => ?_
    simp [(look?_eq_none_iff.1 (h d hd)).1]
  simp [stopDeliveries, none, all]

theorem claimAll_of_still (h : e.Still) {ds : List Pending} (waiting : ∀ d ∈ ds, d ∈ e.deliveries) :
    e.claimAll ds = (e, []) := by
  induction ds with
  | nil => rfl
  | cons d ds ih =>
    obtain ⟨-, alive, unowned⟩ := look?_eq_none_iff.1 (h d (waiting d (by simp)))
    have none : e.bus.claim d.id d.message = (e.bus, none) := by simp [Bus.claim, alive, unowned]
    simp only [claimAll, none]
    exact ih fun x hx => waiting x (by simp [hx])

/-- Where no delivery can go on, the receives in line are served first. -/
theorem settle_of_still (h : e.Still) :
    e.settle =
      let served := e.serve e.receives
      let ended := served.1.endReceives
      let closed := ended.1.closeDeliveries
      (closed.1, served.2 ++ ended.2 ++ closed.2) := by
  simp only [settle, stopDeliveries_of_still h, claimAll_of_still h fun _ hd => hd, List.nil_append]

/-- Where everybody waits, letting the tasks run changes nothing. -/
theorem settle_of_waits (h : Sound capacity made e) (waits : e.waits = true) :
    e.settle = (e, []) := by
  obtain ⟨still, received, held⟩ := waits_iff.1 waits
  have served : e.serve e.receives = (e, []) := by
    rcases received with none | ⟨empty, -⟩
    · rw [none]
      rfl
    · cases line : e.receives with
      | nil => rfl
      | cons id rest => simp [serve, Bus.take?, empty]
  have ended : e.endReceives = (e, []) := by
    unfold endReceives
    split
    · next isOver =>
      simp only [Bool.and_eq_true, Bool.not_eq_true'] at isOver
      have none : e.receives = [] := received.resolve_right fun more => by
        simp [more.2] at isOver
      simp [← none]
    · rfl
  have closed : e.closeDeliveries = (e, []) := by
    unfold closeDeliveries
    split
    · rfl
    · next gone =>
      have silent : e.bus.receiving = false := held.resolve_left gone
      have none : e.deliveries = [] := by
        rw [List.eq_nil_iff_forall_not_mem]
        intro d hd
        have alive := (look?_eq_none_iff.1 (still d hd)).2.1
        rw [silent] at alive
        cases alive
      have bus : e.bus.dropReceiver = e.bus := by
        unfold Bus.dropReceiver
        rw [← silent, ← h.lost silent]
      have same : { e with bus := e.bus.dropReceiver } = e := by rw [bus]
      rw [same]
      show e.claimAll e.deliveries = (e, [])
      rw [none]
      rfl
  rw [settle_of_still still, served]
  simp [ended, closed]

/-! ## The end of the stream -/

/-- Nothing is queued and nobody can send: the bus gave up its own sender, no sender is held, and no
delivery waits. -/
structure Over (e : Exchange) : Prop where
  empty : e.bus.queue = []
  own : e.bus.ownSender = false
  senders : e.senders = []
  deliveries : e.deliveries = []

theorem over_iff : e.Over ↔ e.bus.queue = [] ∧ e.hasSender = false ∧ e.deliveries = [] := by
  constructor
  · rintro ⟨empty, own, senders, deliveries⟩
    exact ⟨empty, by simp [hasSender, own, senders, deliveries], deliveries⟩
  · rintro ⟨empty, sender, deliveries⟩
    simp only [hasSender, Bool.or_eq_false_iff, Bool.not_eq_eq_eq_not, Bool.not_false,
      List.isEmpty_iff] at sender
    exact ⟨empty, sender.1.1, sender.1.2, deliveries⟩

theorem Over.still (h : e.Over) : e.Still := fun d hd => by
  rw [h.deliveries] at hd
  cases hd

/-- No receive ends by itself among what deliveries come to. -/
theorem notMem_ended_claimAll (e : Exchange) (ds : List Pending) (id : String) :
    (id, .ended) ∉ (e.claimAll ds).2 := by
  induction ds generalizing e with
  | nil => exact List.not_mem_nil
  | cons d ds ih =>
    simp only [claimAll]
    split
    · next bus outcome claim =>
      intro c
      rcases List.mem_cons.1 c with c | c
      · cases c
      · exact ih _ c
    · exact ih e

theorem notMem_ended_serve (e : Exchange) (ids : List String) (id : String) :
    (id, .ended) ∉ (e.serve ids).2 := by
  induction ids generalizing e with
  | nil => exact List.not_mem_nil
  | cons x ids ih =>
    simp only [serve]
    split
    · exact List.not_mem_nil
    · next m bus taken =>
      intro c
      rcases List.mem_append.1 c with c | c
      · rcases List.mem_cons.1 c with c | c
        · cases c
        · exact notMem_ended_claimAll _ _ id c
      · exact ih _ c

theorem notMem_ended_closeDeliveries (e : Exchange) (id : String) :
    (id, .ended) ∉ e.closeDeliveries.2 := by
  unfold closeDeliveries
  split
  · exact List.not_mem_nil
  · exact notMem_ended_claimAll _ _ id

/-- A receive ends when it is in line after all that can be served were, nothing is queued and
nobody can send. -/
theorem mem_ended_settle (still : e.Still) {id : String} :
    (id, .ended) ∈ e.settle.2 ↔
      id ∈ (e.serve e.receives).1.receives ∧ (e.serve e.receives).1.bus.queue = [] ∧
        (e.serve e.receives).1.hasSender = false := by
  have served := notMem_ended_serve e e.receives id
  have closed := notMem_ended_closeDeliveries (e.serve e.receives).1.endReceives.1 id
  rw [settle_of_still still]
  simp only [List.mem_append, served, closed, or_false, false_or]
  generalize (e.serve e.receives).1 = c
  unfold endReceives
  split
  · next isOver =>
    simp only [Bool.and_eq_true, List.isEmpty_iff, Bool.not_eq_true'] at isOver
    simp [isOver.1, isOver.2]
  · next going =>
    simp only [List.not_mem_nil, false_iff, not_and]
    intro _ empty sender
    simp [empty, sender] at going

theorem senders_claimAll (e : Exchange) (ds : List Pending) :
    (e.claimAll ds).1.senders = e.senders := by
  induction ds generalizing e with
  | nil => rfl
  | cons d ds ih =>
    simp only [claimAll]
    split
    · exact ih _
    · exact ih e

theorem senders_serve (e : Exchange) (ids : List String) :
    (e.serve ids).1.senders = e.senders := by
  induction ids generalizing e with
  | nil => rfl
  | cons id ids ih =>
    simp only [serve]
    split
    · rfl
    · exact (ih _).trans (senders_claimAll _ _)

/-- While a sender is held, no receive ends. -/
theorem notMem_ended_of_senders (still : e.Still) (held : e.senders ≠ []) (id : String) :
    (id, .ended) ∉ e.settle.2 := by
  intro c
  have sender := ((mem_ended_settle still).1 c).2.2
  rw [hasSender, senders_serve] at sender
  simp [held] at sender

/-- The only receive in line gets a message, if one is queued. -/
theorem notMem_ended_of_queued (still : e.Still) {only : String} (line : e.receives = [only])
    (queued : e.bus.queue ≠ []) (id : String) : (id, .ended) ∉ e.settle.2 := by
  intro c
  have left := ((mem_ended_settle still).1 c).1
  rw [line] at left
  cases queue : e.bus.queue with
  | nil => exact queued queue
  | cons m rest => simp [serve, Bus.take?, queue, receives_claimAll] at left

/-- Without a receive in line none ends. -/
theorem notMem_ended_of_nil (none : e.receives = []) (id : String) :
    (id, .ended) ∉ e.settle.2 := by
  have line : (e.stopDeliveries.1.claimAll e.stopDeliveries.1.deliveries).1.receives = [] := by
    rw [receives_claimAll]
    exact none
  have ends : ∀ c : Exchange, c.receives = [] → c.endReceives.2 = [] := by
    intro c none
    unfold endReceives
    split
    · simp [none]
    · rfl
  have stopped : (id, Outcome.ended) ∉ e.stopDeliveries.2 := by simp [stopDeliveries]
  simp only [settle, line, serve, ends _ line, List.append_nil, List.mem_append, stopped,
    notMem_ended_claimAll, notMem_ended_closeDeliveries, or_false, not_false_eq_true]

/-- Where nothing is queued and no delivery waits, the receives in line end if nobody can send. -/
theorem mem_ended_of_empty (empty : e.bus.queue = []) (none : e.deliveries = []) {id : String} :
    (id, .ended) ∈ e.settle.2 ↔ id ∈ e.receives ∧ e.Over := by
  have still : e.Still := fun d hd => by simp [none] at hd
  have served : (e.serve e.receives).1 = e := by
    cases line : e.receives with
    | nil => rfl
    | cons id rest => simp [serve, Bus.take?, empty]
  rw [mem_ended_settle still, served, over_iff]
  simp [empty, none]

/-- Where nothing is queued and nobody can send, all receives in line end, and it stays so. -/
theorem settle_of_over (h : e.Over) :
    e.settle.1.Over ∧ e.settle.2 = e.receives.map fun id => (id, .ended) := by
  obtain ⟨-, sender, -⟩ := over_iff.1 h
  have served : e.serve e.receives = (e, []) := by
    cases line : e.receives with
    | nil => rfl
    | cons id rest => simp [serve, Bus.take?, h.empty]
  have ended : e.endReceives =
      ({ e with receives := [] }, e.receives.map fun id => (id, .ended)) := by
    simp [endReceives, h.empty, sender]
  rw [settle_of_still h.still, served]
  simp only [ended, closeDeliveries]
  split
  · exact ⟨⟨h.empty, h.own, h.senders, h.deliveries⟩, by simp⟩
  · refine ⟨?_, ?_⟩
    · simp only [h.deliveries, claimAll]
      exact ⟨rfl, h.own, h.senders, rfl⟩
    · simp [h.deliveries, claimAll]

/-- A step that starts a receive does nothing else; no other step adds one. -/
theorem receives_act (e : Exchange) (s : Step) :
    (∃ id, s = .receive id ∧ e.hasStream = true ∧
      e.act s = ({ e with receives := e.receives ++ [id] }, ⟨.ok, [], []⟩)) ∨
    (e.act s).1.receives.Sublist e.receives := by
  cases s with
  | receive id =>
    by_cases held : e.hasStream = true
    · exact .inl ⟨id, rfl, held, by simp [act, held]⟩
    · exact .inr (by simp [act, held])
  | abort id =>
    refine .inr ?_
    simp only [act]
    split
    · exact .refl _
    · split
      · exact List.filter_sublist
      · exact .refl _
  | deliver id sender token m =>
    refine .inr ?_
    simp only [act, startDelivery]
    split
    · split <;> exact .refl _
    · exact .refl _
  | _ =>
    refine .inr ?_
    simp only [act]
    repeat' split
    all_goals exact .refl _

/-- A delivery needs a sender, which is still held when it was started. -/
theorem senders_deliver (e : Exchange) (id sender token : String) (m : Message) :
    (e.act (.deliver id sender token m)).1 = e ∨
      (e.act (.deliver id sender token m)).1.senders ≠ [] := by
  by_cases held : sender ∈ e.senders
  · refine .inr ?_
    have some := List.ne_nil_of_mem held
    simp only [act, held, if_true, startDelivery]
    split <;> exact some
  · exact .inl (by simp [act, held])

/-- Where nothing is queued and no delivery waits, no delivery waits after a step either, and a
message is queued only with a sender that is held. -/
theorem act_of_empty (empty : e.bus.queue = []) (none : e.deliveries = [])
    (room : e.bus.free ≠ 0) (s : Step) :
    (e.act s).1.deliveries = [] ∧
      ((e.act s).1.bus.queue = [] ∨ (e.act s).1.senders ≠ []) := by
  cases deed_of_act e s with
  | still own bus deliveries => exact ⟨deliveries.trans none, .inl (by rw [bus]; exact empty)⟩
  | @queued id sender token m _ queued bus deliveries =>
    refine ⟨deliveries.trans none, (senders_deliver e id sender token m).imp_left fun same => ?_⟩
    rw [same]
    exact empty
  | parked held full bus deliveries => exact absurd (Bus.offer_eq_full full).2.1 room
  | taken taken deliveries =>
    have queue := Bus.queue_of_take? taken
    rw [empty] at queue
    cases queue
  | @aborted id _ bus deliveries =>
    refine ⟨?_, .inl ?_⟩
    · rw [deliveries, none]
      rfl
    · rw [bus, Bus.queue_leave]
      exact empty

/-- The direct part of a step ends no receive. -/
theorem notMem_ended_act (e : Exchange) (s : Step) (id : String) :
    (id, .ended) ∉ (e.act s).2.done := by
  cases s with
  | deliver id sender token m =>
    simp only [act, startDelivery]
    split
    · split <;> simp
    · simp
  | _ =>
    simp only [act]
    repeat' split
    all_goals simp

/-- A receive sees the end exactly when it is in line after the direct part of a step and nothing is
queued then, the bus gave up its own sender, no sender is held and no delivery waits. -/
theorem Sound.mem_ended_iff (h : Sound capacity made e) (some_place : 0 < capacity)
    (waits : e.waits = true) (s : Step) {id : String} :
    (id, .ended) ∈ (e.step s).2.done ↔ id ∈ (e.act s).1.receives ∧ (e.act s).1.Over := by
  obtain ⟨still, received, -⟩ := waits_iff.1 waits
  have step : (id, Outcome.ended) ∈ (e.step s).2.done ↔
      (id, Outcome.ended) ∈ (e.act s).1.settle.2 := by
    simp only [Exchange.step, List.mem_append, notMem_ended_act, false_or]
  rw [step]
  -- an empty bus that everybody waits at has room, and so no delivery waits
  have idle : e.bus.queue = [] → e.deliveries = [] ∧ e.bus.free ≠ 0 := by
    intro empty
    refine ⟨List.eq_nil_iff_forall_not_mem.2 fun d hd => ?_, ?_⟩
    · have full := h.length_queue_eq still hd
      rw [empty, List.length_nil] at full
      omega
    · simp only [Bus.free, empty, h.granted_eq_nil still, h.capacity, List.length_nil]
      omega
  have empty_case : e.bus.queue = [] → ((id, Outcome.ended) ∈ (e.act s).1.settle.2 ↔
      id ∈ (e.act s).1.receives ∧ (e.act s).1.Over) := by
    intro empty
    obtain ⟨none, room⟩ := idle empty
    obtain ⟨none, empty | held⟩ := act_of_empty empty none room s
    · exact mem_ended_of_empty empty none
    · have still : (e.act s).1.Still := fun d hd => by simp [none] at hd
      exact iff_of_false (notMem_ended_of_senders still held id)
        fun isOver => held isOver.2.senders
  by_cases empty : e.bus.queue = []
  · exact empty_case empty
  · have nobody : e.receives = [] := received.resolve_right fun more => empty more.1
    rcases receives_act e s with ⟨only, rfl, -, act⟩ | fewer
    · rw [act, nobody, List.nil_append]
      have still : Still { e with receives := [only] } := fun d hd =>
        look?_eq_none_iff.2 (look?_eq_none_iff (e := e).1 (still d hd))
      exact iff_of_false (notMem_ended_of_queued still rfl empty id)
        fun isOver => empty isOver.2.empty
    · rw [nobody, List.sublist_nil] at fewer
      rw [fewer]
      exact iff_of_false (notMem_ended_of_nil fewer id) fun c => List.not_mem_nil c.1

/-! ## Once the end was seen -/

/-- Where nobody can send, the direct part of a step gives no sender and no message, ends no task,
and changes nothing about it. -/
theorem Over.act (h : e.Over) (s : Step) :
    (e.act s).1.Over ∧ (e.act s).2.done = [] ∧ (∀ m, (e.act s).2.reply ≠ .got (some m)) ∧
      ((∃ id, s = .sender id) ∨ (∃ id source, s = .cloneSender id source) →
        (e.act s).2.reply ≠ .ok) := by
  obtain ⟨empty, own, senders, deliveries⟩ := h
  cases s with
  | sender id =>
    simp only [Exchange.act, own]
    split <;> exact ⟨⟨empty, own, senders, deliveries⟩, rfl, by simp, by simp⟩
  | cloneSender id source =>
    simp only [Exchange.act, senders, List.not_mem_nil, if_false]
    exact ⟨⟨empty, own, senders, deliveries⟩, trivial, by simp, by simp⟩
  | deliver id sender token m =>
    simp only [Exchange.act, senders, List.not_mem_nil, if_false]
    exact ⟨⟨empty, own, senders, deliveries⟩, trivial, by simp, by simp⟩
  | dropSender id =>
    exact ⟨⟨empty, own, by simp [Exchange.act, senders], deliveries⟩, rfl, by simp [Exchange.act],
      by simp⟩
  | receive id =>
    simp only [Exchange.act]
    split <;> exact ⟨⟨empty, own, senders, deliveries⟩, rfl, by simp, by simp⟩
  | tryReceive =>
    have none : e.bus.take? = none := by simp [Bus.take?, empty]
    simp only [Exchange.act, none]
    split
    · exact ⟨⟨empty, own, senders, deliveries⟩, rfl, by simp, by simp⟩
    · split <;> exact ⟨⟨empty, own, senders, deliveries⟩, rfl, by simp, by simp⟩
  | abort id =>
    simp only [Exchange.act, deliveries, List.any_nil, Bool.false_eq_true, if_false]
    split
    · exact ⟨⟨empty, own, senders, rfl⟩, rfl, by simp, by simp⟩
    · exact ⟨⟨empty, own, senders, deliveries⟩, rfl, by simp, by simp⟩
  | close =>
    simp only [Exchange.act]
    split
    · exact ⟨⟨empty, own, senders, deliveries⟩, rfl, by simp, by simp⟩
    · exact ⟨⟨empty, rfl, senders, deliveries⟩, rfl, by simp, by simp⟩
  | isClosed =>
    refine ⟨⟨empty, own, senders, deliveries⟩, rfl, ?_, by simp⟩
    simp only [Exchange.act]
    split <;> simp
  | dropBus => exact ⟨⟨empty, rfl, senders, deliveries⟩, rfl, by simp [Exchange.act], by simp⟩
  | _ => exact ⟨⟨empty, own, senders, deliveries⟩, rfl, by simp [Exchange.act], by simp⟩

/-- Where nobody can send, a step gives no sender, hands out no message and ends every receive that
it starts, and nobody can send after it. -/
theorem Over.step (h : e.Over) (s : Step) :
    (e.step s).1.Over ∧ (∀ id m, (id, .received m) ∉ (e.step s).2.done) ∧
      (∀ m, (e.step s).2.reply ≠ .got (some m)) ∧
      (∀ id, s = .receive id → (e.step s).2.reply = .ok → (id, .ended) ∈ (e.step s).2.done) ∧
      ((∃ id, s = .sender id) ∨ (∃ id source, s = .cloneSender id source) →
        (e.step s).2.reply ≠ .ok) := by
  obtain ⟨isOver, quiet, reply, sender⟩ := h.act s
  obtain ⟨isOver, ended⟩ := settle_of_over isOver
  have done : (e.step s).2.done = (e.act s).1.receives.map fun id => (id, .ended) := by
    simp only [Exchange.step, quiet, ended, List.nil_append]
  refine ⟨isOver, fun id m => ?_, reply, ?_, sender⟩
  · rw [done]
    simp
  · rintro id rfl started
    have held : e.hasStream = true := by
      by_contra none
      simp [Exchange.step, Exchange.act, none] at started
    rw [done]
    simp [Exchange.act, held]

/-! ## The end of the receiver -/

/-- The receiver is gone and no delivery waits. -/
structure Gone (e : Exchange) : Prop where
  receiving : e.bus.receiving = false
  deliveries : e.deliveries = []

/-- The direct part of a step lets nobody stop or start to receive. -/
theorem receiving_act (e : Exchange) (s : Step) :
    (e.act s).1.bus.receiving = e.bus.receiving := by
  cases deed_of_act e s with
  | still own bus deliveries => rw [bus]
  | queued room bus deliveries => rw [bus]
  | parked held full bus deliveries => rw [bus, (e.bus.frame_park _).2.1]
  | taken taken deliveries => exact (Bus.frame_of_take? taken).2.1
  | aborted bus deliveries => rw [bus, (e.bus.frame_leave _).2.1]

/-- The direct part of a step ends a delivery as closed only when nobody receives, and while nobody
receives in no other way. -/
theorem closed_iff_act {s : Step} {id : String} {outcome : Delivery}
    (h : (id, .delivery outcome) ∈ (e.act s).2.done) :
    outcome = .closed ↔ e.bus.receiving = false := by
  cases s with
  | deliver id sender token m =>
    simp only [act, startDelivery] at h
    split at h
    · split at h
      · next bus queued =>
        obtain ⟨-, same⟩ := Prod.mk.inj (List.mem_singleton.1 h)
        cases same
        simp [(Bus.offer_eq_queued queued).1]
      · next bus closed =>
        obtain ⟨-, same⟩ := Prod.mk.inj (List.mem_singleton.1 h)
        cases same
        simp [(Bus.offer_eq_closed closed).1]
      · cases h
    · cases h
  | _ =>
    simp only [act] at h
    repeat' split at h
    all_goals cases h

/-- Nothing but the end of the receiver changes whether somebody receives. -/
theorem Turned.receiving_eq (h : Turned e t e' done) (other : t ≠ .letGo) :
    e'.bus.receiving = e.bus.receiving := by
  cases h with
  | direct s => exact receiving_act e s
  | @stopped d waiting cancelled => exact (e.bus.frame_leave d.id).2.1
  | @claimed d bus outcome waiting going claim =>
    have frame := e.bus.frame_claim d.id d.message
    rw [claim] at frame
    exact frame.2.1
  | received line taken => exact (Bus.frame_of_take? taken).2.1
  | ended line empty sender => rfl
  | letGo nobody alive => exact absurd rfl other

/-- Once the receiver is gone it stays so. -/
theorem Turned.receiving (h : Turned e t e' done) (gone : e.bus.receiving = false) :
    e'.bus.receiving = false := by
  by_cases same : t = .letGo
  · subst same
    cases h
    rfl
  · exact (h.receiving_eq same).trans gone

/-- A delivery that ends as closed found that nobody receives. -/
theorem Turned.receiving_of_closed (h : Turned e t e' done) {id : String}
    (closed : (id, .delivery .closed) ∈ done) : e.bus.receiving = false := by
  cases h with
  | direct s => exact (closed_iff_act closed).1 rfl
  | stopped waiting cancelled => simp at closed
  | @claimed d bus outcome waiting going claim =>
    obtain ⟨-, same⟩ := Prod.mk.inj (List.mem_singleton.1 closed)
    cases same
    by_contra alive
    exact Bus.claim_ne_closed (by simpa using alive) d.id d.message (congrArg Prod.snd claim)
  | received line taken => simp at closed
  | ended line empty gone => simp at closed
  | letGo gone alive => cases closed

/-- Nobody comes to hold the receiver again. -/
theorem Turned.hasReceiver (h : Turned e t e' done) (nobody : e.hasReceiver = false) :
    e'.hasReceiver = false := by
  cases h with
  | direct s =>
    by_contra held
    rw [hasReceiver_of_act (by simpa using held)] at nobody
    cases nobody
  | stopped waiting cancelled => exact nobody
  | claimed waiting going claim => exact nobody
  | received line taken => simp [Exchange.hasReceiver, line] at nobody
  | ended line empty gone => simp [Exchange.hasReceiver, line] at nobody
  | letGo gone alive => exact nobody

/-- The receiver ends only when nobody holds it, and a delivery ends as closed only when it has
ended. -/
theorem receiving_of_turns? (held : e.bus.receiving = false → e.hasReceiver = false)
    (ran : e.turns? turns = some (e', done)) :
    (e'.bus.receiving = false → e'.hasReceiver = false) ∧
      ∀ id, (id, .delivery .closed) ∈ done → e'.bus.receiving = false := by
  refine induction_of_turns? (P := fun _ c past =>
      (c.bus.receiving = false → c.hasReceiver = false) ∧
        ∀ id, (id, Outcome.delivery .closed) ∈ past → c.bus.receiving = false)
    ⟨held, fun _ none => absurd none List.not_mem_nil⟩ (fun {_ t c c' past new} _ h turn => ?_) ran
  have turned := turned_of_turn? turn
  refine ⟨fun silent => ?_, fun id closed => ?_⟩
  · by_cases same : t = .letGo
    · subst same
      cases turned with
      | letGo nobody _ => exact nobody
    · exact turned.hasReceiver (h.1 ((turned.receiving_eq same).symm.trans silent))
  · rcases List.mem_append.1 closed with old | new
    · exact turned.receiving (h.2 id old)
    · exact turned.receiving (turned.receiving_of_closed new)

/-- Once the receiver is gone and no delivery waits, every delivery ends as closed. -/
theorem Gone.of_turns? (h : e.Gone) (ran : e.turns? turns = some (e', done)) :
    e'.Gone ∧ ∀ id outcome, (id, .delivery outcome) ∈ done → outcome = .closed := by
  refine induction_of_turns? (P := fun _ c past =>
      c.Gone ∧ ∀ id outcome, (id, Outcome.delivery outcome) ∈ past → outcome = .closed)
    ⟨h, fun _ _ none => absurd none List.not_mem_nil⟩ (fun {_ t c c' past new} _ h turn => ?_) ran
  obtain ⟨⟨silent, none⟩, closed⟩ := h
  have turned := turned_of_turn? turn
  have first : c'.deliveries = [] ∧
      ∀ id outcome, (id, Outcome.delivery outcome) ∈ new → outcome = .closed := by
    rw [List.eq_nil_iff_forall_not_mem]
    refine ⟨fun d hd => ?_, fun id outcome h => ?_⟩
    · rcases turned.waiting hd with old | ⟨-, -, -, alive, -⟩
      · simp [none] at old
      · simp [silent] at alive
    · cases turned with
      | direct s => exact (closed_iff_act h).2 silent
      | stopped waiting cancelled => simp [none] at waiting
      | claimed waiting going claim => simp [none] at waiting
      | received line taken => simp at h
      | ended line empty gone => simp at h
      | letGo gone alive => cases h
  refine ⟨⟨turned.receiving silent, first.1⟩, fun id outcome h => ?_⟩
  rcases List.mem_append.1 h with old | new
  · exact closed id outcome old
  · exact first.2 id outcome new

/-- While nobody receives, every delivery that looks at the bus ends as closed. -/
theorem claimAll_of_silent (silent : e.bus.receiving = false) (ds : List Pending) :
    (e.claimAll ds).2 = ds.map fun d => (d.id, .delivery .closed) := by
  induction ds generalizing e with
  | nil => rfl
  | cons d ds ih =>
    have claim : e.bus.claim d.id d.message =
        ({ e.bus with
            granted := e.bus.granted.erase d.id
            parked := e.bus.parked.erase d.id }, some .closed) := by
      simp [Bus.claim, silent]
    simp only [claimAll, claim, List.map_cons, List.cons.injEq, true_and]
    exact ih silent

/-- Where no delivery can go on and nobody holds the receiver, all deliveries end as closed. -/
theorem settle_of_nobody (still : e.Still) (nobody : e.hasReceiver = false) :
    e.settle.2 = e.deliveries.map fun d => (d.id, .delivery .closed) := by
  have none : e.receives = [] := by
    simp only [hasReceiver, Bool.or_eq_false_iff, Bool.not_eq_eq_eq_not, Bool.not_false,
      List.isEmpty_iff] at nobody
    exact nobody.2
  have ended : e.endReceives = (e, []) := by
    unfold endReceives
    split
    · simp [← none]
    · rfl
  rw [settle_of_still still, none]
  simp only [serve, ended, closeDeliveries, nobody, Bool.false_eq_true, if_false, List.nil_append]
  exact claimAll_of_silent rfl _

/-- Only dropping them changes whether the bus and its stream are held. -/
theorem hasBus_act (e : Exchange) (s : Step) :
    (e.act s).1.hasBus = (e.hasBus && s ≠ .dropBus) ∧
      (e.act s).1.hasStream = (e.hasStream && s ≠ .dropStream) := by
  cases s with
  | deliver id sender token m =>
    simp only [act, startDelivery]
    split
    · split <;> simp
    · simp
  | _ =>
    simp only [act, addSender]
    repeat' split
    all_goals simp

namespace Sound

variable {s : Step}

/-- A delivery ends as closed only when nobody holds the receiver. -/
theorem hasReceiver_of_closed (h : Sound capacity made e)
    (held : e.bus.receiving = false → e.hasReceiver = false)
    (fresh : ∀ id ∈ (calls [s]).map Prod.fst, id ∉ made) {id : String}
    (closed : (id, .delivery .closed) ∈ (e.step s).2.done) : (e.step s).1.hasReceiver = false := by
  obtain ⟨turns, -, -, ran⟩ := h.exists_turns?_step fresh
  obtain ⟨held, silent⟩ := receiving_of_turns? held ran
  exact held (silent id closed)

/-- Where everybody waits and nobody holds the receiver, it is gone. -/
theorem gone (waits : e.waits = true) (nobody : e.hasReceiver = false) : e.Gone := by
  obtain ⟨still, -, held⟩ := waits_iff.1 waits
  have silent : e.bus.receiving = false := held.resolve_left (by simp [nobody])
  refine ⟨silent, List.eq_nil_iff_forall_not_mem.2 fun d hd => ?_⟩
  have alive := (look?_eq_none_iff.1 (still d hd)).2.1
  rw [silent] at alive
  cases alive

/-- When the last holder of the receiver is gone, all deliveries that wait end as closed. -/
theorem closed_of_hasReceiver (h : Sound capacity made e) (some_place : 0 < capacity)
    (waits : e.waits = true) (fresh : ∀ id ∈ (calls [s]).map Prod.fst, id ∉ made)
    (nobody : (e.step s).1.hasReceiver = false) {d : Pending} (waiting : d ∈ e.deliveries) :
    (d.id, .delivery .closed) ∈ (e.step s).2.done := by
  obtain ⟨still, -, -⟩ := waits_iff.1 waits
  have poised := h.poised some_place waits
  have held := (poised.delivery d waiting).2.2.1
  have line : e.receives = [] := poised.apart.resolve_left (List.ne_nil_of_mem waiting)
  have frame : Framed (e.act s).1 (e.step s).1 := framed_settle (h.act s fresh)
  simp only [hasReceiver, Bool.or_eq_false_iff, frame.hasBus, frame.hasStream] at nobody
  obtain ⟨⟨bus, stream⟩, -⟩ := nobody
  obtain ⟨hasBus, hasStream⟩ := hasBus_act e s
  -- the bus or its stream was held before, so it is what the step drops
  have dropped : s = .dropBus ∨ s = .dropStream := by
    rw [hasBus] at bus
    rw [hasStream] at stream
    simp only [hasReceiver, line, List.isEmpty_nil, Bool.not_true, Bool.or_false,
      Bool.or_eq_true] at held
    rcases held with held | held
    · simp only [held, Bool.true_and, decide_eq_false_iff_not, not_not] at bus
      exact .inl bus
    · simp only [held, Bool.true_and, decide_eq_false_iff_not, not_not] at stream
      exact .inr stream
  have nobody : (e.act s).1.hasReceiver = false := by
    have nobody : (e.act s).1.receives = [] := by
      rcases dropped with rfl | rfl <;> exact line
    simp [hasReceiver, bus, stream, nobody]
  have still : (e.act s).1.Still ∧ (e.act s).1.deliveries = e.deliveries := by
    rcases dropped with rfl | rfl
    · exact ⟨fun d hd => look?_eq_none_iff.2 (look?_eq_none_iff (e := e).1 (still d hd)), rfl⟩
    · exact ⟨fun d hd => look?_eq_none_iff.2 (look?_eq_none_iff (e := e).1 (still d hd)), rfl⟩
  have closed : (d.id, .delivery .closed) ∈ (e.act s).1.settle.2 := by
    rw [settle_of_nobody still.1 nobody, still.2]
    exact List.mem_map_of_mem waiting
  exact List.mem_append_right _ closed

end Sound

/-- Once nobody receives, a delivery that is called for ends as closed at once. -/
theorem Gone.deliver (h : e.Gone) {id sender token : String} {m : Message}
    (started : (e.step (.deliver id sender token m)).2.reply = .ok) :
    (id, .delivery .closed) ∈ (e.step (.deliver id sender token m)).2.done := by
  have held : sender ∈ e.senders := by
    by_contra none
    simp [step, act, none] at started
  have offer : e.bus.offer m = (e.bus, .closed) := by simp [Bus.offer, h.receiving]
  simp [step, act, held, startDelivery, offer]

/-- The bus's own sender is given up by closing a bus that is held or by dropping it. -/
theorem ownSender_act (e : Exchange) (s : Step) :
    (e.act s).1.bus.ownSender = false ↔
      e.bus.ownSender = false ∨ s = .close ∧ e.hasBus = true ∨ s = .dropBus := by
  cases s with
  | close =>
    simp only [act, Bus.close]
    split <;> simp_all
  | dropBus => simp [act, Bus.close]
  | deliver id sender token m =>
    have own : (e.act (.deliver id sender token m)).1.bus.ownSender = e.bus.ownSender := by
      simp only [act, startDelivery]
      split
      · split
        · next bus queued => rw [(Bus.offer_eq_queued queued).2.2]
        · next bus closed => rw [(Bus.offer_eq_closed closed).2]
        · next bus full =>
          rw [(Bus.offer_eq_full full).2.2]
          rfl
      · rfl
    simp [own]
  | tryReceive =>
    have own : (e.act .tryReceive).1.bus.ownSender = e.bus.ownSender := by
      simp only [act]
      repeat' split
      all_goals first | rfl | exact (Bus.frame_of_take? ‹_›).2.2
    simp [own]
  | abort id =>
    have own : (e.act (.abort id)).1.bus.ownSender = e.bus.ownSender := by
      simp only [act]
      repeat' split
      all_goals first | rfl | exact (e.bus.frame_leave id).2.2
    simp [own]
  | _ =>
    simp only [act, addSender]
    repeat' split
    all_goals simp

end FeedCapture.Exchange
