import FeedCapture.Proofs.Exchange.Turns

/-!
# Settling turn by turn

Letting the tasks of an exchange run until they wait is one order of turns among all, and at its end
every task waits.  So what holds after every order of turns holds after the steps of an exchange.

## Main definitions

* `Exchange.Still` — no delivery that waits can go on

The main statements are `Exchange.exists_turns?_settle`, `Exchange.waits_settle` and
`Exchange.exists_turns?_run`.
-/

namespace FeedCapture.Exchange

variable {e : Exchange}

/-! ## Settling is a run of turns -/

/-- The deliveries whose token is cancelled run one after the other. -/
theorem turns?_stopDeliveries {ds : List Pending} (kept : List Pending)
    (all : e.deliveries = kept ++ ds) (distinct : e.deliveries.Nodup) :
    ∃ turns, turns.filterMap Turn.step? = [] ∧
      e.turns? turns = some
        ({ e with
            bus := (ds.filter fun d => e.tokens.tree.isCancelled d.token).foldl
              (fun bus d => bus.leave d.id) e.bus
            deliveries := kept ++ ds.filter fun d => !e.tokens.tree.isCancelled d.token },
          (ds.filter fun d => e.tokens.tree.isCancelled d.token).map
            fun d => (d.id, .delivery .stopped)) := by
  induction ds generalizing e kept with
  | nil =>
    refine ⟨[], rfl, ?_⟩
    simp [turns?, ← all]
  | cons d ds ih =>
    cases cancelled : e.tokens.tree.isCancelled d.token with
    | true =>
      have waiting : d ∈ e.deliveries := by simp [all]
      have first : d ∉ kept := by
        rw [all] at distinct
        exact fun c => List.disjoint_of_nodup_append distinct c (by simp)
      have erased : e.deliveries.erase d = kept ++ ds := by
        rw [all, List.erase_append_right _ first, List.erase_cons_head]
      let c : Exchange := { e with bus := e.bus.leave d.id, deliveries := kept ++ ds }
      have turn : e.turn? (.delivery d) = some (c, [(d.id, .delivery .stopped)]) := by
        simp [turn?, waiting, look?, cancelled, erased, c]
      have others : c.deliveries.Nodup := by
        show (kept ++ ds).Nodup
        rw [← erased]
        exact distinct.erase d
      obtain ⟨turns, quiet, ran⟩ := ih (e := c) kept rfl others
      refine ⟨.delivery d :: turns, quiet, ?_⟩
      rw [turns?_cons turn ran]
      simp [c, cancelled]
    | false =>
      obtain ⟨turns, quiet, ran⟩ := ih (kept ++ [d]) (by simp [all]) distinct
      refine ⟨turns, quiet, ?_⟩
      rw [ran]
      simp [cancelled]

/-- No delivery that waits is to be stopped any more, and nothing is queued that nobody receives. -/
structure Going (e : Exchange) : Prop where
  distinct : e.deliveries.Nodup
  unstopped : ∀ d ∈ e.deliveries, e.tokens.tree.isCancelled d.token = false
  lost : e.bus.receiving = false → e.bus.queue = []

theorem going_stopDeliveries (distinct : e.deliveries.Nodup)
    (lost : e.bus.receiving = false → e.bus.queue = []) : e.stopDeliveries.1.Going where
  distinct := distinct.filter _
  unstopped d hd := by
    have going := (List.mem_filter.1 hd).2
    rwa [Bool.not_eq_true'] at going
  lost := by
    have kept : ∀ (ds : List Pending) (bus : Bus String),
        (ds.foldl (fun bus d => bus.leave d.id) bus).receiving = bus.receiving ∧
          (ds.foldl (fun bus d => bus.leave d.id) bus).queue = bus.queue := by
      intro ds
      induction ds with
      | nil => exact fun _ => ⟨rfl, rfl⟩
      | cons d ds ih =>
        intro bus
        obtain ⟨receiving, queue⟩ := ih (bus.leave d.id)
        exact ⟨receiving.trans (bus.frame_leave d.id).2.1, queue.trans (bus.queue_leave d.id)⟩
    obtain ⟨receiving, queue⟩ := kept (e.deliveries.filter fun d =>
      e.tokens.tree.isCancelled d.token) e.bus
    exact fun gone => queue.trans (lost (receiving.symm.trans gone))

/-- A delivery that ends at the bus. -/
theorem Going.claim (h : e.Going) {d : Pending} {bus : Bus String} {outcome : Delivery}
    (claim : e.bus.claim d.id d.message = (bus, some outcome)) :
    Going { e with bus, deliveries := e.deliveries.erase d } where
  distinct := h.distinct.erase d
  unstopped x hx := h.unstopped x (List.mem_of_mem_erase hx)
  lost gone := by
    have receiving := (e.bus.frame_claim d.id d.message).2.1
    have queue := e.bus.queue_claim d.id d.message
    rw [claim] at receiving queue
    have silent : e.bus.receiving = false := receiving.symm.trans gone
    have unqueued : some outcome ≠ some Delivery.delivered := fun same => by
      rw [same] at claim
      rw [Bus.receiving_of_claim_eq_delivered claim] at silent
      cases silent
    rw [if_neg unqueued] at queue
    exact queue.trans (h.lost silent)

/-- A message can be taken only while somebody receives. -/
theorem Going.take? (h : e.Going) {m : Message} {bus : Bus String} (rest : List String)
    (taken : e.bus.take? = some (m, bus)) : Going { e with bus, receives := rest } where
  distinct := h.distinct
  unstopped := h.unstopped
  lost gone := by
    have queue := Bus.queue_of_take? taken
    rw [h.lost ((Bus.frame_of_take? taken).2.1.symm.trans gone)] at queue
    cases queue

theorem Going.claimAll (h : e.Going) (ds : List Pending) : (e.claimAll ds).1.Going := by
  induction ds generalizing e with
  | nil => exact h
  | cons d rest ih =>
    simp only [Exchange.claimAll]
    split
    · next bus outcome claim => exact ih (h.claim claim)
    · exact ih h

theorem Going.serve (h : e.Going) (ids : List String) : (e.serve ids).1.Going := by
  induction ids generalizing e with
  | nil => exact h
  | cons id rest ih =>
    simp only [Exchange.serve]
    split
    · exact h
    · next m bus taken => exact ih ((h.take? rest taken).claimAll _)

theorem Going.endReceives (h : e.Going) : e.endReceives.1.Going := by
  unfold Exchange.endReceives
  split
  · exact ⟨h.distinct, h.unstopped, h.lost⟩
  · exact h

/-- The receiver ends. -/
theorem Going.dropReceiver (h : e.Going) : Going { e with bus := e.bus.dropReceiver } :=
  ⟨h.distinct, h.unstopped, fun _ => rfl⟩

/-- The deliveries that can go on run one after the other. -/
theorem turns?_claimAll {ds : List Pending} (h : e.Going) (waiting : ∀ d ∈ ds, d ∈ e.deliveries)
    (distinct : ds.Nodup) :
    ∃ turns, turns.filterMap Turn.step? = [] ∧ e.turns? turns = some (e.claimAll ds) := by
  induction ds generalizing e with
  | nil => exact ⟨[], rfl, rfl⟩
  | cons d rest ih =>
    rw [List.nodup_cons] at distinct
    have mem := waiting d (by simp)
    simp only [claimAll]
    split
    · next bus outcome claim =>
      let c : Exchange := { e with bus, deliveries := e.deliveries.erase d }
      have turn : e.turn? (.delivery d) = some (c, [(d.id, .delivery outcome)]) := by
        simp [turn?, mem, look?, h.unstopped d mem, claim, c]
      have others : ∀ x ∈ rest, x ∈ c.deliveries := by
        intro x hx
        have other : x ≠ d := fun same => distinct.1 (same ▸ hx)
        exact (List.mem_erase_of_ne other).2 (waiting x (by simp [hx]))
      obtain ⟨turns, quiet, ran⟩ := ih (h.claim claim) others distinct.2
      exact ⟨.delivery d :: turns, quiet, turns?_cons turn ran⟩
    · exact ih h (fun x hx => waiting x (by simp [hx])) distinct.2

theorem receives_claimAll (e : Exchange) (ds : List Pending) :
    (e.claimAll ds).1.receives = e.receives := by
  induction ds generalizing e with
  | nil => rfl
  | cons d rest ih =>
    simp only [claimAll]
    split
    · exact ih _
    · exact ih e

/-- The receives in line run one after the other, and after each of them the deliveries. -/
theorem turns?_serve {ids : List String} (h : e.Going) (line : e.receives = ids) :
    ∃ turns, turns.filterMap Turn.step? = [] ∧ e.turns? turns = some (e.serve ids) := by
  induction ids generalizing e with
  | nil => exact ⟨[], rfl, rfl⟩
  | cons id rest ih =>
    simp only [serve]
    split
    · exact ⟨[], rfl, rfl⟩
    · next m bus taken =>
      let c : Exchange := { e with bus, receives := rest }
      have turn : e.turn? .receive = some (c, [(id, .received m)]) := by
        simp [turn?, line, taken, c]
      have going : c.Going := h.take? rest taken
      obtain ⟨first, quiet, claimed⟩ := turns?_claimAll going (fun _ h => h) going.distinct
      obtain ⟨later, quiet', served⟩ := ih (going.claimAll c.deliveries) (receives_claimAll c _)
      have ran := turns?_cons turn (turns?_append claimed served)
      refine ⟨.receive :: (first ++ later), ?_, ran⟩
      rw [List.filterMap_cons_none rfl, List.filterMap_append, quiet, quiet', List.append_nil]

/-- The receives in line see the end one after the other. -/
theorem turns?_endReceives (e : Exchange) :
    ∃ turns, turns.filterMap Turn.step? = [] ∧ e.turns? turns = some e.endReceives := by
  unfold endReceives
  split
  · next isOver =>
    simp only [Bool.and_eq_true, List.isEmpty_iff, Bool.not_eq_true'] at isOver
    generalize line : e.receives = ids
    induction ids generalizing e with
    | nil =>
      refine ⟨[], rfl, ?_⟩
      simp [turns?, ← line]
    | cons id rest ih =>
      have turn : e.turn? .receive = some ({ e with receives := rest }, [(id, .ended)]) := by
        simp [turn?, line, Bus.take?, isOver.1, isOver.2]
      obtain ⟨turns, quiet, ran⟩ := ih { e with receives := rest } isOver rfl
      exact ⟨.receive :: turns, quiet, turns?_cons turn ran⟩
  · exact ⟨[], rfl, rfl⟩

/-- The receiver ends when nobody holds it, and the deliveries that wait see that. -/
theorem turns?_closeDeliveries (h : e.Going) :
    ∃ turns, turns.filterMap Turn.step? = [] ∧ e.turns? turns = some e.closeDeliveries := by
  unfold closeDeliveries
  split
  · exact ⟨[], rfl, rfl⟩
  · next gone =>
    obtain ⟨turns, quiet, ran⟩ :=
      turns?_claimAll h.dropReceiver (fun _ h => h) h.distinct
    cases alive : e.bus.receiving with
    | true =>
      have turn : e.turn? .letGo = some ({ e with bus := e.bus.dropReceiver }, []) := by
        simp [turn?, gone, alive]
      exact ⟨.letGo :: turns, quiet, turns?_cons turn ran⟩
    | false =>
      have same : e.bus.dropReceiver = e.bus := by
        unfold Bus.dropReceiver
        rw [← alive, ← h.lost alive]
      rw [same] at ran ⊢
      exact ⟨turns, quiet, ran⟩

/-- Letting the tasks run until they wait is one order of turns. -/
theorem exists_turns?_settle (distinct : e.deliveries.Nodup)
    (lost : e.bus.receiving = false → e.bus.queue = []) :
    ∃ turns, turns.filterMap Turn.step? = [] ∧ e.turns? turns = some e.settle := by
  have going := going_stopDeliveries distinct lost
  obtain ⟨stopping, quiet₁, stopped⟩ := turns?_stopDeliveries [] (List.nil_append _).symm distinct
  obtain ⟨claiming, quiet₂, claimed⟩ := turns?_claimAll going (fun _ h => h) going.distinct
  have going := going.claimAll e.stopDeliveries.1.deliveries
  obtain ⟨serving, quiet₃, served⟩ := turns?_serve going rfl
  obtain ⟨ending, quiet₄, ended⟩ := turns?_endReceives _
  obtain ⟨closing, quiet₅, closed⟩ := turns?_closeDeliveries (going.serve _).endReceives
  refine ⟨stopping ++ (claiming ++ (serving ++ (ending ++ closing))), ?_, ?_⟩
  · simp [quiet₁, quiet₂, quiet₃, quiet₄, quiet₅]
  · rw [turns?_append stopped (turns?_append claimed (turns?_append served
      (turns?_append ended closed))), settle]
    simp only [List.append_assoc]
    rfl

/-! ## After settling every task waits -/

/-- No delivery that waits can go on. -/
def Still (e : Exchange) : Prop := ∀ d ∈ e.deliveries, e.look? d = none

theorem look?_eq_none_iff {d : Pending} : e.look? d = none ↔
    e.tokens.tree.isCancelled d.token = false ∧ e.bus.receiving = true ∧ d.id ∉ e.bus.granted := by
  unfold look?
  rw [← Bus.claim_eq_none_iff (m := d.message)]
  cases e.tokens.tree.isCancelled d.token with
  | true => simp
  | false =>
    cases claim : e.bus.claim d.id d.message with
    | mk bus outcome => cases outcome <;> simp

theorem waits_iff : e.waits = true ↔
    e.Still ∧ (e.receives = [] ∨ e.bus.queue = [] ∧ e.hasSender = true) ∧
      (e.hasReceiver = true ∨ e.bus.receiving = false) := by
  have receive : e.turn? .receive = none ↔
      e.receives = [] ∨ e.bus.queue = [] ∧ e.hasSender = true := by
    simp only [turn?, Bus.take?]
    cases e.receives with
    | nil => simp
    | cons id rest =>
      cases e.bus.queue with
      | nil => cases e.hasSender <;> simp
      | cons m queue => simp
  have letGo : e.turn? .letGo = none ↔ e.hasReceiver = true ∨ e.bus.receiving = false := by
    simp only [turn?]
    cases e.hasReceiver <;> simp
  simp [waits, Still, receive, letGo, and_assoc]

/-- What the deliveries leave alone when they look at the bus in turn. -/
theorem frame_claimAll (e : Exchange) (ds : List Pending) :
    (e.claimAll ds).1.bus.receiving = e.bus.receiving ∧
      (e.claimAll ds).1.deliveries.Sublist e.deliveries ∧
      ∀ id ∈ (e.claimAll ds).1.bus.granted, id ∈ e.bus.granted := by
  induction ds generalizing e with
  | nil => exact ⟨rfl, .refl _, fun _ h => h⟩
  | cons d rest ih =>
    simp only [claimAll]
    split
    · next bus outcome claim =>
      obtain ⟨receiving, waiting, granted⟩ := ih { e with bus, deliveries := e.deliveries.erase d }
      have frame := e.bus.frame_claim d.id d.message
      rw [claim] at frame
      refine ⟨receiving.trans frame.2.1, waiting.trans List.erase_sublist, fun id hid => ?_⟩
      have owner : id ∈ bus.granted := granted id hid
      unfold Bus.claim at claim
      split at claim
      · cases claim
        exact List.mem_of_mem_erase owner
      · split at claim
        · cases claim
          exact List.mem_of_mem_erase owner
        · cases claim
    · exact ih e

/-- Who has looked at the bus and waits on cannot go on. -/
theorem Going.look?_claimAll (h : e.Going) {ds : List Pending} {d : Pending} (looked : d ∈ ds)
    (waits : d ∈ (e.claimAll ds).1.deliveries) : (e.claimAll ds).1.look? d = none := by
  induction ds generalizing e with
  | nil => cases looked
  | cons x rest ih =>
    simp only [Exchange.claimAll] at waits ⊢
    split at waits
    · next bus outcome claim =>
      have going := h.claim claim
      obtain rfl | looked := List.mem_cons.1 looked
      · have gone := (frame_claimAll _ rest).2.1.subset waits
        exact absurd gone h.distinct.not_mem_erase
      · simpa [claim] using ih going looked waits
    · next bus claim =>
      obtain rfl | looked := List.mem_cons.1 looked
      · have still := Bus.claim_eq_none_iff.1 (congrArg Prod.snd claim)
        obtain ⟨receiving, -, granted⟩ := e.frame_claimAll rest
        rw [look?_eq_none_iff]
        exact ⟨(h.claimAll rest).unstopped d waits, receiving.trans still.1,
          fun owner => still.2 (granted _ owner)⟩
      · exact ih h looked waits

/-- When every delivery has looked at the bus, none of them can go on. -/
theorem Going.still_claimAll (h : e.Going) : (e.claimAll e.deliveries).1.Still :=
  fun _ waits => h.look?_claimAll ((e.frame_claimAll _).2.1.subset waits) waits

/-- After the receives in line were served, none of the deliveries can go on, and nobody receives or
nothing is queued. -/
theorem Going.still_serve (h : e.Going) (still : e.Still) {ids : List String}
    (line : e.receives = ids) :
    (e.serve ids).1.Still ∧ ((e.serve ids).1.receives = [] ∨ (e.serve ids).1.bus.queue = []) := by
  induction ids generalizing e with
  | nil => exact ⟨still, .inl line⟩
  | cons id rest ih =>
    simp only [Exchange.serve]
    split
    · next none => exact ⟨still, .inr (Bus.take?_eq_none_iff.1 none)⟩
    · next m bus taken =>
      have going := h.take? rest taken
      exact ih (going.claimAll _) going.still_claimAll (receives_claimAll _ _)

/-- Ending the receives in line makes no delivery able to go on, and no receive can go on after. -/
theorem Still.endReceives (h : e.Still) (served : e.receives = [] ∨ e.bus.queue = []) :
    e.endReceives.1.Still ∧ (e.endReceives.1.receives = [] ∨
      e.endReceives.1.bus.queue = [] ∧ e.endReceives.1.hasSender = true) := by
  unfold Exchange.endReceives
  split
  · exact ⟨fun d waits => look?_eq_none_iff.2 (look?_eq_none_iff (e := e).1 (h d waits)), .inl rfl⟩
  · next going =>
    refine ⟨h, served.imp_right fun empty => ⟨empty, ?_⟩⟩
    rw [empty, List.isEmpty_nil, Bool.true_and, Bool.not_eq_true', Bool.not_eq_false] at going
    exact going

/-- After settling every task waits. -/
theorem waits_settle (distinct : e.deliveries.Nodup)
    (lost : e.bus.receiving = false → e.bus.queue = []) : e.settle.1.waits = true := by
  have going := going_stopDeliveries distinct lost
  have looked := going.still_claimAll
  have going := going.claimAll e.stopDeliveries.1.deliveries
  obtain ⟨still, served⟩ := going.still_serve looked rfl
  obtain ⟨still, ended⟩ := still.endReceives served
  have going := (going.serve
    (e.stopDeliveries.1.claimAll e.stopDeliveries.1.deliveries).1.receives).endReceives
  simp only [settle, closeDeliveries]
  rw [waits_iff]
  split
  · next held => exact ⟨still, ended, .inl held⟩
  · next gone =>
    refine ⟨going.dropReceiver.still_claimAll, .inl ?_, .inr ?_⟩
    · rw [receives_claimAll]
      simp only [hasReceiver, Bool.or_eq_true, not_or, Bool.not_eq_true', Bool.not_eq_false,
        List.isEmpty_iff] at gone
      exact gone.2
    · exact (frame_claimAll _ _).1

/-! ## Steps -/

/-- What comes of a step comes of some turns too: its direct part, and then of the tasks one after
the other until they all wait. -/
theorem Sound.exists_turns?_step {capacity : Nat} {made : List String} (h : Sound capacity made e)
    {s : Step} (fresh : ∀ id ∈ (calls [s]).map Prod.fst, id ∉ made) :
    ∃ turns, turns.filterMap Turn.step? = [s] ∧ (e.step s).1.waits = true ∧
      e.turns? turns = some ((e.step s).1, (e.step s).2.done) := by
  have acted := h.act s fresh
  have distinct := acted.distinct.of_map
  obtain ⟨turns, quiet, settled⟩ := exists_turns?_settle distinct acted.lost
  have turn : e.turn? (.direct s) = some ((e.act s).1, (e.act s).2.done) := rfl
  refine ⟨.direct s :: turns, ?_, waits_settle distinct acted.lost, turns?_cons turn settled⟩
  rw [List.filterMap_cons, quiet]
  rfl

/-- Whatever comes of the steps of an exchange comes of some turns of it too, and every task waits
after them. -/
theorem Sound.exists_turns?_run {capacity : Nat} {made : List String} (h : Sound capacity made e)
    (waiting : e.waits = true) {steps : List Step}
    (distinct : (made ++ (calls steps).map Prod.fst).Nodup) :
    ∃ turns, turns.filterMap Turn.step? = steps ∧ (e.run steps).1.waits = true ∧
      e.turns? turns = some ((e.run steps).1, (e.run steps).2.flatMap (·.done)) := by
  induction steps generalizing e made with
  | nil => exact ⟨[], rfl, waiting, rfl⟩
  | cons s rest ih =>
    rw [← List.singleton_append, calls_append, List.map_append, ← List.append_assoc] at distinct
    obtain ⟨first, one, waits, stepped⟩ := h.exists_turns?_step fun id new old =>
      List.disjoint_of_nodup_append distinct.of_append_left old new
    have calls_first : callsIn first = calls [s] := by rw [callsIn, one]
    have next := h.turns stepped (calls_first ▸ distinct.of_append_left)
    rw [calls_first] at next
    obtain ⟨turns, others, waits, ran⟩ := ih next waits distinct
    refine ⟨first ++ turns, ?_, waits, turns?_append stepped ran⟩
    rw [List.filterMap_append, one, others, List.singleton_append]

end FeedCapture.Exchange
