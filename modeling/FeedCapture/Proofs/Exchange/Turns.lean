import FeedCapture.Bus.Turn
import FeedCapture.Proofs.Cancellation.Lineage
import FeedCapture.Proofs.Exchange.Outcomes

/-!
# What turns keep

In whatever order the turns of an exchange come, every place of its bus is taken by a message, owned
by a delivery that waits, or free; nobody waits in line while a place is free; and the line holds
exactly the deliveries that wait.

## Main definitions

* `Exchange.Deed` — what the direct part of a step does to the bus and the deliveries
* `Exchange.Turned` — the turns that are possible, with what they come to
* `Exchange.Sound` — the places and the line of an exchange are in order

The main statements are `Exchange.turned_of_turn?` and `Exchange.sound_of_turns?`.
-/

namespace FeedCapture

namespace Bus

variable {ι : Type} [DecidableEq ι] {b b' : Bus ι}

/-- Whoever ends at the bus is in line no more. -/
theorem line_of_claim {id : ι} {m : Message} {outcome : Delivery} (distinct : b.line.Nodup)
    (h : b.claim id m = (b', some outcome)) : b'.line = b.line.erase id := by
  unfold claim at h
  split at h
  · cases h
    by_cases owner : id ∈ b.granted
    · have elsewhere : id ∉ b.parked := fun waits =>
        List.disjoint_of_nodup_append distinct owner waits
      simp only [line]
      rw [List.erase_append_left _ owner, List.erase_of_not_mem elsewhere]
    · simp only [line]
      rw [List.erase_append_right _ owner, List.erase_of_not_mem owner]
  · split at h
    · next owner =>
      cases h
      exact (List.erase_append_left _ owner).symm
    · cases h

/-- A delivery in line goes on waiting when somebody receives and it owns no place. -/
theorem claim_eq_none_iff {id : ι} {m : Message} :
    (b.claim id m).2 = none ↔ b.receiving = true ∧ id ∉ b.granted := by
  unfold claim
  cases b.receiving with
  | false => simp
  | true => by_cases owner : id ∈ b.granted <;> simp [owner]

/-- Looking at the bus stops nobody. -/
theorem claim_ne_stopped (b : Bus ι) (id : ι) (m : Message) :
    (b.claim id m).2 ≠ some .stopped := by
  unfold claim
  split
  · simp
  · split <;> simp

end Bus

namespace Exchange

/-! ## What a turn comes to -/

/-- What the direct part of a step does to the bus and the deliveries.  Whatever else it does
concerns the handles, the receives and the tokens. -/
inductive Deed (e : Exchange) : Step → Exchange → Prop where
  | still {s : Step} {e' : Exchange} (own : Bool) (bus : e'.bus = { e.bus with ownSender := own })
      (deliveries : e'.deliveries = e.deliveries) : Deed e s e'
  | queued {id sender token : String} {m : Message} {e' : Exchange}
      (room : e.bus.offer m = ({ e.bus with queue := e.bus.queue ++ [m] }, .queued))
      (bus : e'.bus = { e.bus with queue := e.bus.queue ++ [m] })
      (deliveries : e'.deliveries = e.deliveries) : Deed e (.deliver id sender token m) e'
  | parked {id sender token : String} {m : Message} {e' : Exchange} (held : sender ∈ e.senders)
      (full : e.bus.offer m = (e.bus, .full)) (bus : e'.bus = e.bus.park id)
      (deliveries : e'.deliveries = e.deliveries ++ [⟨id, m, (e.tokens.resolve token).2⟩]) :
      Deed e (.deliver id sender token m) e'
  | taken {s : Step} {e' : Exchange} {m : Message} (taken : e.bus.take? = some (m, e'.bus))
      (deliveries : e'.deliveries = e.deliveries) : Deed e s e'
  | aborted {id : String} {e' : Exchange} (bus : e'.bus = e.bus.leave id)
      (deliveries : e'.deliveries = e.deliveries.filter fun d => d.id ≠ id) :
      Deed e (.abort id) e'

theorem deed_of_act (e : Exchange) (s : Step) : Deed e s (e.act s).1 := by
  cases s with
  | deliver id sender token m =>
    simp only [act]
    split
    · next held =>
      simp only [startDelivery]
      split
      · next bus ho =>
        obtain ⟨-, -, rfl⟩ := Bus.offer_eq_queued ho
        exact .queued ho rfl rfl
      · next bus ho =>
        obtain ⟨-, rfl⟩ := Bus.offer_eq_closed ho
        exact .still _ rfl rfl
      · next bus ho =>
        obtain ⟨-, -, rfl⟩ := Bus.offer_eq_full ho
        exact .parked held ho rfl rfl
    · exact .still _ rfl rfl
  | tryReceive =>
    simp only [act]
    split
    · exact .still _ rfl rfl
    · split
      · exact .still _ rfl rfl
      · split
        · next m bus ht => exact .taken ht rfl
        · exact .still _ rfl rfl
  | abort id =>
    simp only [act]
    split
    · exact .aborted rfl rfl
    · split <;> exact .still _ rfl rfl
  | sender id =>
    simp only [act]
    split
    · exact .still _ rfl rfl
    · split <;> exact .still _ rfl rfl
  | cloneSender id source => simp only [act]; split <;> exact .still _ rfl rfl
  | receive id => simp only [act]; split <;> exact .still _ rfl rfl
  | close => simp only [act]; split <;> exact .still _ rfl rfl
  | _ => exact .still _ rfl rfl

/-- The direct part of a step stops no delivery. -/
theorem notMem_done_act (e : Exchange) (s : Step) (id : String) :
    (id, .delivery .stopped) ∉ (e.act s).2.done := by
  cases s with
  | deliver id sender token m =>
    simp only [act]
    split
    · simp only [startDelivery]
      split <;> simp
    · simp
  | _ =>
    simp only [act]
    repeat' split
    all_goals simp

/-- The turns that are possible, with what they come to and the tasks that end. -/
inductive Turned (e : Exchange) : Turn → Exchange → List (String × Outcome) → Prop where
  | direct (s : Step) : Turned e (.direct s) (e.act s).1 (e.act s).2.done
  | stopped {d : Pending} (waiting : d ∈ e.deliveries)
      (cancelled : e.tokens.tree.isCancelled d.token = true) :
      Turned e (.delivery d)
        { e with bus := e.bus.leave d.id, deliveries := e.deliveries.erase d }
        [(d.id, .delivery .stopped)]
  | claimed {d : Pending} {bus : Bus String} {outcome : Delivery} (waiting : d ∈ e.deliveries)
      (going : e.tokens.tree.isCancelled d.token = false)
      (claim : e.bus.claim d.id d.message = (bus, some outcome)) :
      Turned e (.delivery d) { e with bus, deliveries := e.deliveries.erase d }
        [(d.id, .delivery outcome)]
  | received {id : String} {rest : List String} {m : Message} {bus : Bus String}
      (line : e.receives = id :: rest) (taken : e.bus.take? = some (m, bus)) :
      Turned e .receive { e with bus, receives := rest } [(id, .received m)]
  | ended {id : String} {rest : List String} (line : e.receives = id :: rest)
      (empty : e.bus.take? = none) (gone : e.hasSender = false) :
      Turned e .receive { e with receives := rest } [(id, .ended)]
  | letGo (gone : e.hasReceiver = false) (alive : e.bus.receiving = true) :
      Turned e .letGo { e with bus := e.bus.dropReceiver } []

variable {e e' : Exchange} {t : Turn} {done : List (String × Outcome)}

theorem turned_of_turn? (h : e.turn? t = some (e', done)) : Turned e t e' done := by
  cases t with
  | direct s =>
    cases h
    exact .direct s
  | delivery d =>
    simp only [turn?, Option.ite_none_right_eq_some] at h
    obtain ⟨waiting, h⟩ := h
    obtain ⟨⟨c, outcome⟩, look, same⟩ := Option.map_eq_some_iff.1 h
    cases same
    unfold look? at look
    split at look
    · next cancelled =>
      cases look
      exact .stopped waiting cancelled
    · next going =>
      split at look
      · next bus o claim =>
        cases look
        exact .claimed waiting (by simpa using going) claim
      · cases look
  | receive =>
    simp only [turn?] at h
    split at h
    · cases h
    · next id rest line =>
      split at h
      · next m bus taken =>
        cases h
        exact .received line taken
      · next empty =>
        split at h
        · cases h
        · next gone =>
          cases h
          exact .ended line empty (by simpa using gone)
  | letGo =>
    simp only [turn?] at h
    split at h
    · cases h
    · next isOver =>
      cases h
      simp only [Bool.or_eq_true, Bool.not_eq_true', not_or, Bool.not_eq_true,
        Bool.not_eq_false] at isOver
      exact .letGo isOver.1 isOver.2

/-! ## What every turn keeps -/

/-- Of deliveries with different names, the names of those that are left when one has ended. -/
theorem map_id_erase {ds : List Pending} {d : Pending} (mem : d ∈ ds)
    (distinct : (ds.map (·.id)).Nodup) : (ds.erase d).map (·.id) = (ds.map (·.id)).erase d.id := by
  induction ds with
  | nil => cases mem
  | cons x ds ih =>
    rw [List.map_cons, List.nodup_cons] at distinct
    by_cases same : x = d
    · subst same
      simp
    · have there : d ∈ ds := (List.mem_cons.1 mem).resolve_left (Ne.symm same)
      have other : x.id ≠ d.id := fun c => distinct.1 (c ▸ List.mem_map_of_mem there)
      rw [List.erase_cons_tail (by simpa using same), List.map_cons, List.map_cons,
        List.erase_cons_tail (by simpa using other), ih there distinct.2]

/-- The calls of the deliveries that some turns start. -/
def callsIn (turns : List Turn) : List (String × Message) := calls (turns.filterMap Turn.step?)

theorem calls_append (xs ys : List Step) : calls (xs ++ ys) = calls xs ++ calls ys :=
  List.filterMap_append ..

theorem callsIn_append (xs ys : List Turn) : callsIn (xs ++ ys) = callsIn xs ++ callsIn ys := by
  rw [callsIn, List.filterMap_append, calls_append, callsIn, callsIn]

/-- The places and the line of an exchange are in order, and who waits was called for. -/
structure Sound (capacity : Nat) (made : List String) (e : Exchange) : Prop where
  capacity : e.bus.capacity = capacity
  tidy : e.bus.receiving = true → e.bus.Tidy
  /-- Once nobody receives, nothing is queued any more. -/
  lost : e.bus.receiving = false → e.bus.queue = []
  line : e.bus.line = e.pendingIds
  distinct : e.pendingIds.Nodup
  known : ∀ id ∈ e.pendingIds, id ∈ made

theorem sound_ofBus {capacity : Nat} {bus : Bus String}
    (built : Bus.withCapacity String capacity = .ok bus) : Sound capacity [] (ofBus bus) := by
  have tidy := Bus.tidy_withCapacity built
  obtain rfl := Bus.eq_of_withCapacity built
  exact ⟨rfl, fun _ => tidy, fun _ => rfl, rfl, List.nodup_nil, fun _ h => by cases h⟩

namespace Sound

variable {capacity : Nat} {made : List String}

/-- Other names may be made too. -/
theorem mono (h : Sound capacity made e) (more : List String) : Sound capacity (made ++ more) e :=
  { h with known := fun id hid => List.mem_append_left _ (h.known id hid) }

/-- A delivery that ends is gone from the line and from those that wait. -/
theorem erase (h : Sound capacity made e) {d : Pending} (waiting : d ∈ e.deliveries)
    {bus : Bus String} (size : bus.capacity = e.bus.capacity)
    (tidy : bus.receiving = true → bus.Tidy) (lost : bus.receiving = false → bus.queue = [])
    (line : bus.line = e.bus.line.erase d.id) :
    Sound capacity made { e with bus, deliveries := e.deliveries.erase d } where
  capacity := size.trans h.capacity
  tidy := tidy
  lost := lost
  line := by
    show bus.line = (e.deliveries.erase d).map (·.id)
    rw [line, h.line, map_id_erase waiting h.distinct, pendingIds]
  distinct := h.distinct.sublist (List.erase_sublist.map _)
  known id hid := h.known id ((List.erase_sublist.map _).subset hid)

/-- What does not concern the deliveries keeps the order, if the places are in order. -/
theorem withBus (h : Sound capacity made e) (e' : Exchange)
    (deliveries : e'.deliveries = e.deliveries) (size : e'.bus.capacity = e.bus.capacity)
    (tidy : e'.bus.receiving = true → e'.bus.Tidy)
    (lost : e'.bus.receiving = false → e'.bus.queue = []) (line : e'.bus.line = e.bus.line) :
    Sound capacity made e' := by
  have ids : e'.pendingIds = e.pendingIds := by rw [pendingIds, deliveries, pendingIds]
  exact ⟨size.trans h.capacity, tidy, lost, by rw [line, h.line, ids], ids ▸ h.distinct,
    fun id hid => h.known id (ids ▸ hid)⟩

/-- A message can be taken only while somebody receives. -/
theorem receiving_of_take? (h : Sound capacity made e) {m : Message} {bus : Bus String}
    (taken : e.bus.take? = some (m, bus)) : e.bus.receiving = true := by
  cases alive : e.bus.receiving with
  | true => rfl
  | false =>
    have queue := Bus.queue_of_take? taken
    rw [h.lost alive] at queue
    cases queue

/-- Taking a message gives its place to the first delivery in line. -/
theorem taken (h : Sound capacity made e) (e' : Exchange) {m : Message}
    (taken : e.bus.take? = some (m, e'.bus)) (deliveries : e'.deliveries = e.deliveries) :
    Sound capacity made e' := by
  have alive := h.receiving_of_take? taken
  obtain ⟨size, receiving, -⟩ := Bus.frame_of_take? taken
  refine h.withBus e' deliveries size (fun _ => (h.tidy alive).take? taken) (fun gone => ?_)
    (Bus.line_of_take? taken)
  rw [receiving, alive] at gone
  cases gone

/-- The direct part of a step keeps everything in order, if it starts no delivery under a name that
was used before. -/
theorem act (h : Sound capacity made e) (s : Step)
    (fresh : ∀ id ∈ (calls [s]).map Prod.fst, id ∉ made) :
    Sound capacity (made ++ (calls [s]).map Prod.fst) (e.act s).1 := by
  cases deed_of_act e s with
  | still own bus deliveries =>
    refine (h.withBus _ deliveries ?_ ?_ ?_ ?_).mono _
    · rw [bus]
    · intro alive
      rw [bus] at alive ⊢
      exact ⟨(h.tidy alive).bounded, (h.tidy alive).packed⟩
    · intro gone
      rw [bus] at gone ⊢
      exact h.lost gone
    · rw [bus]
      rfl
  | @queued id sender token m _ room bus deliveries =>
    obtain ⟨alive, -, -⟩ := Bus.offer_eq_queued room
    have tidy := (h.tidy alive).offer m
    rw [room] at tidy
    refine (h.withBus _ deliveries ?_ (fun _ => bus ▸ tidy) (fun gone => ?_) ?_).mono _
    · rw [bus]
    · rw [bus] at gone
      rw [alive] at gone
      cases gone
    · rw [bus]
      rfl
  | @parked id sender token m _ held full bus deliveries =>
    obtain ⟨alive, none, -⟩ := Bus.offer_eq_full full
    have unknown : id ∉ e.pendingIds := fun waits =>
      fresh id (by simp [calls]) (h.known id waits)
    have ids : (e.act (.deliver id sender token m)).1.pendingIds = e.pendingIds ++ [id] := by
      simp [pendingIds, deliveries]
    refine ⟨?_, fun _ => ?_, fun gone => ?_, ?_, ?_, ?_⟩
    · rw [bus]
      exact h.capacity
    · rw [bus]
      exact (h.tidy alive).park none id
    · rw [bus] at gone
      have : e.bus.receiving = false := gone
      rw [alive] at this
      cases this
    · rw [bus, Bus.line_park, h.line, ids]
    · rw [ids, List.nodup_append]
      refine ⟨h.distinct, List.nodup_singleton id, fun x hx y hy => ?_⟩
      rw [List.mem_singleton.1 hy]
      exact fun same => unknown (same ▸ hx)
    · intro x hx
      rw [ids] at hx
      rcases List.mem_append.1 hx with hx | hx
      · exact List.mem_append_left _ (h.known x hx)
      · exact List.mem_append_right _ (by simpa [calls] using hx)
  | taken taken deliveries => exact (h.taken _ taken deliveries).mono _
  | @aborted id _ bus deliveries =>
    have ids : (e.act (.abort id)).1.pendingIds = e.pendingIds.erase id := by
      rw [h.distinct.erase_eq_filter, pendingIds, deliveries, pendingIds, List.filter_map]
      exact congrArg _ (List.filter_congr fun d _ => by by_cases c : d.id = id <;> simp [c])
    obtain ⟨size, receiving, -⟩ := e.bus.frame_leave id
    have kept : Sound capacity made (e.act (.abort id)).1 := by
      refine ⟨?_, fun alive => ?_, fun gone => ?_, ?_, ?_, ?_⟩
      · rw [bus, size, h.capacity]
      · rw [bus] at alive ⊢
        exact (h.tidy (receiving ▸ alive)).leave id
      · rw [bus] at gone ⊢
        rw [Bus.queue_leave]
        exact h.lost (receiving ▸ gone)
      · rw [bus, Bus.line_leave, h.line, ids]
      · exact ids ▸ h.distinct.erase id
      · exact fun x hx => h.known x (List.mem_of_mem_erase (ids ▸ hx))
    exact kept.mono _

/-- Every turn keeps everything in order, if it starts no delivery under a name that was used
before. -/
theorem turn (h : Sound capacity made e) (ht : e.turn? t = some (e', done))
    (fresh : ∀ id ∈ (callsIn [t]).map Prod.fst, id ∉ made) :
    Sound capacity (made ++ (callsIn [t]).map Prod.fst) e' := by
  have line : e.bus.line.Nodup := h.line ▸ h.distinct
  cases turned_of_turn? ht with
  | direct s => exact h.act s fresh
  | @stopped d waiting cancelled =>
    obtain ⟨size, receiving, -⟩ := e.bus.frame_leave d.id
    refine (h.erase waiting size (fun alive => ?_) (fun gone => ?_) (Bus.line_leave _ _)).mono _
    · exact (h.tidy (receiving ▸ alive)).leave d.id
    · rw [Bus.queue_leave]
      exact h.lost (receiving ▸ gone)
  | @claimed d bus outcome waiting going claim =>
    obtain ⟨size, receiving, -⟩ := e.bus.frame_claim d.id d.message
    rw [claim] at size receiving
    refine (h.erase waiting size (fun alive => ?_) (fun gone => ?_)
      (Bus.line_of_claim line claim)).mono _
    · have alive : e.bus.receiving = true := receiving ▸ alive
      have tidy := (h.tidy alive).claim alive d.id d.message
      rwa [claim] at tidy
    · have silent : e.bus.receiving = false := receiving ▸ gone
      have queue := e.bus.queue_claim d.id d.message
      have unqueued : outcome ≠ .delivered := by
        rintro rfl
        rw [Bus.receiving_of_claim_eq_delivered claim] at silent
        cases silent
      rw [claim, if_neg (by simpa using unqueued)] at queue
      exact queue.trans (h.lost silent)
  | received line taken =>
    refine mono ?_ _
    exact h.taken _ taken rfl
  | ended line empty gone =>
    refine mono ?_ _
    exact h.withBus _ rfl rfl h.tidy h.lost rfl
  | letGo gone alive =>
    refine mono ?_ _
    exact h.withBus _ rfl rfl (fun c => Bool.noConfusion c) (fun _ => rfl) rfl

end Sound

/-- Whatever happens, everything stays in order, if no two deliveries are started under one name. -/
theorem Sound.turns {capacity : Nat} {made : List String} {turns : List Turn}
    (h : Sound capacity made e) (ran : e.turns? turns = some (e', done))
    (distinct : (made ++ (callsIn turns).map Prod.fst).Nodup) :
    Sound capacity (made ++ (callsIn turns).map Prod.fst) e' := by
  refine induction_of_turns?
    (P := fun xs c _ => (made ++ (callsIn xs).map Prod.fst).Nodup →
      Sound capacity (made ++ (callsIn xs).map Prod.fst) c)
    (fun _ => by simpa [callsIn, calls] using h) (fun {xs t c c' _ _} _ h turn distinct => ?_)
    ran distinct
  rw [callsIn_append, List.map_append, ← List.append_assoc] at distinct ⊢
  refine (h distinct.of_append_left).turn turn fun id new old => ?_
  exact List.disjoint_of_nodup_append distinct old new

/-- Whatever happens to a new exchange, everything stays in order, if no two deliveries are started
under one name. -/
theorem sound_of_turns? {capacity : Nat} {bus : Bus String} {turns : List Turn}
    (built : Bus.withCapacity String capacity = .ok bus)
    (ran : (ofBus bus).turns? turns = some (e, done))
    (distinct : ((callsIn turns).map Prod.fst).Nodup) :
    Sound capacity ((callsIn turns).map Prod.fst) e :=
  (sound_ofBus built).turns ran distinct

end Exchange

end FeedCapture
