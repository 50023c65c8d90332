import FeedCapture.Proofs.Exchange.Settling

/-!
# Who waits at a bus

Whatever happens to an exchange, in whatever order its tasks take their turns: when every task
waits, the deliveries that wait have a full bus and the receives an empty one, so not both wait; no
place is owned by a delivery that does not use it; and only a cancelled delivery that once found the
bus full was ever stopped.

## Main definitions

* `Exchange.Poised` — who waits, and what for, when every task waits
* `Exchange.CalledWhenFull` — a delivery joined the line because it found no free place

The main statement is `Exchange.poised_of_turns`.
-/

namespace FeedCapture.Exchange

variable {e e' start : Exchange} {capacity : Nat} {made : List String} {turns : List Turn}
  {done : List (String × Outcome)}

/-! ## When every task waits -/

/-- Who waits, and what for, when every task waits. -/
structure Poised (capacity : Nat) (e : Exchange) : Prop where
  bounded : e.bus.queue.length ≤ capacity
  /-- No place is kept for a delivery that does not use it. -/
  unowned : e.bus.granted = []
  /-- A delivery waits for room only, and somebody can make some. -/
  delivery : ∀ d ∈ e.deliveries, e.bus.queue.length = capacity ∧ e.bus.receiving = true ∧
    e.hasReceiver = true ∧
    ∀ ancestor, e.tokens.tree.Below d.token ancestor → ¬e.tokens.tree.Fired ancestor
  /-- A receive waits for a message only, and somebody can send one. -/
  receive : e.receives ≠ [] → e.bus.queue = [] ∧
    (e.bus.ownSender = true ∨ e.senders ≠ [] ∨ e.deliveries ≠ [])
  apart : e.deliveries = [] ∨ e.receives = []

namespace Sound

/-- Every place is taken by a message, owned by a delivery that waits and can go on, or free; and
nobody waits in line while one is free. -/
theorem places (h : Sound capacity made e) (alive : e.bus.receiving = true) :
    e.bus.queue.length + e.bus.granted.length + e.bus.free = capacity ∧
      (e.bus.free ≠ 0 → e.bus.parked = []) ∧
      ∀ id ∈ e.bus.granted, ∃ d ∈ e.deliveries, d.id = id ∧ e.look? d ≠ none := by
  have size := h.capacity
  have bounded := (h.tidy alive).bounded
  refine ⟨?_, fun room => ?_, fun id owner => ?_⟩
  · unfold Bus.free
    omega
  · by_contra waits
    have packed := (h.tidy alive).packed waits
    unfold Bus.free at room
    omega
  · have waits : id ∈ e.pendingIds := h.line ▸ List.mem_append_left _ owner
    obtain ⟨d, hd, rfl⟩ := List.mem_map.1 waits
    exact ⟨d, hd, rfl, fun still => (look?_eq_none_iff.1 still).2.2 owner⟩

/-- When every task waits, no place is owned by a delivery. -/
theorem granted_eq_nil (h : Sound capacity made e) (still : e.Still) : e.bus.granted = [] := by
  rw [List.eq_nil_iff_forall_not_mem]
  intro id owner
  have waits : id ∈ e.pendingIds := h.line ▸ List.mem_append_left _ owner
  obtain ⟨d, hd, rfl⟩ := List.mem_map.1 waits
  exact (look?_eq_none_iff.1 (still d hd)).2.2 owner

/-- A delivery that cannot go on finds as many messages queued as there are places. -/
theorem length_queue_eq (h : Sound capacity made e) (still : e.Still) {d : Pending}
    (waits : d ∈ e.deliveries) : e.bus.queue.length = capacity := by
  have alive := (look?_eq_none_iff.1 (still d waits)).2.1
  have none := h.granted_eq_nil still
  have packed : e.bus.queue.length + e.bus.granted.length = e.bus.capacity := by
    refine (h.tidy alive).packed fun empty => ?_
    have line : d.id ∈ e.bus.line := h.line ▸ List.mem_map_of_mem waits
    rw [Bus.line, none, empty] at line
    cases line
  rw [none, List.length_nil, Nat.add_zero] at packed
  exact packed.trans h.capacity

theorem poised (h : Sound capacity made e) (some_place : 0 < capacity) (waits : e.waits = true) :
    e.Poised capacity := by
  obtain ⟨still, received, held⟩ := waits_iff.1 waits
  have waiting : e.receives ≠ [] → e.bus.queue = [] ∧ e.hasSender = true := received.resolve_left
  refine ⟨?_, h.granted_eq_nil still, fun d hd => ?_, fun line => ?_, ?_⟩
  · cases alive : e.bus.receiving with
    | true =>
      have bounded := (h.tidy alive).bounded
      have size := h.capacity
      omega
    | false => simp [h.lost alive]
  · obtain ⟨going, alive, -⟩ := look?_eq_none_iff.1 (still d hd)
    refine ⟨h.length_queue_eq still hd, alive, ?_, fun ancestor below fired => ?_⟩
    · exact held.resolve_right (by simp [alive])
    · rw [TokenTree.isCancelled_of_below below fired] at going
      cases going
  · obtain ⟨empty, sender⟩ := waiting line
    refine ⟨empty, ?_⟩
    simpa [hasSender, or_assoc] using sender
  · by_contra both
    obtain ⟨waits, line⟩ := not_or.1 both
    obtain ⟨d, hd⟩ := List.exists_mem_of_ne_nil _ waits
    have full := h.length_queue_eq still hd
    rw [(waiting line).1, List.length_nil] at full
    omega

end Sound

/-- After any steps, with all that can go on having gone on after each of them, everybody who waits
waits for something that is not there. -/
theorem poised_run {bus : Bus String} {steps : List Step}
    (built : Bus.withCapacity String capacity = .ok bus)
    (distinct : ((calls steps).map Prod.fst).Nodup) :
    ((ofBus bus).run steps).1.Poised capacity := by
  have sound := sound_ofBus built
  obtain ⟨turns, same, waits, ran⟩ := sound.exists_turns?_run rfl distinct
  have calls : callsIn turns = calls steps := by rw [callsIn, same]
  exact (sound.turns ran (calls ▸ distinct)).poised (Bus.pos_of_withCapacity built) waits

/-! ## Where a delivery comes from -/

/-- Whoever waits after a turn waited before it, or the turn is the call that found no place. -/
theorem Turned.waiting {t : Turn} (h : Turned e t e' done) {d : Pending} (hd : d ∈ e'.deliveries) :
    d ∈ e.deliveries ∨ ∃ sender token, t = .direct (.deliver d.id sender token d.message) ∧
      e.bus.receiving = true ∧ e.bus.free = 0 ∧ d.token = (e.tokens.resolve token).2 := by
  cases h with
  | direct s =>
    cases deed_of_act e s with
    | @parked id sender token m _ held full bus deliveries =>
      rw [deliveries, List.mem_append, List.mem_singleton] at hd
      refine hd.imp_right ?_
      rintro rfl
      obtain ⟨alive, none, -⟩ := Bus.offer_eq_full full
      exact ⟨sender, token, rfl, alive, none, rfl⟩
    | aborted bus deliveries =>
      rw [deliveries] at hd
      exact .inl (List.mem_of_mem_filter hd)
    | still own bus deliveries => exact .inl (deliveries ▸ hd)
    | queued room bus deliveries => exact .inl (deliveries ▸ hd)
    | taken taken deliveries => exact .inl (deliveries ▸ hd)
  | stopped waiting cancelled => exact .inl (List.mem_of_mem_erase hd)
  | claimed waiting going claim => exact .inl (List.mem_of_mem_erase hd)
  | received line taken => exact .inl hd
  | ended line empty gone => exact .inl hd
  | letGo gone alive => exact .inl hd

/-- Only a delivery that ran and found its token cancelled ends as stopped. -/
theorem Turned.stopped_of_mem {t : Turn} (h : Turned e t e' done) {id : String}
    (halted : (id, .delivery .stopped) ∈ done) :
    ∃ d ∈ e.deliveries, d.id = id ∧ t = .delivery d ∧ e.tokens.tree.isCancelled d.token = true := by
  cases h with
  | direct s => exact absurd halted (notMem_done_act e s id)
  | @stopped d waiting cancelled =>
    obtain ⟨rfl, -⟩ := Prod.mk.inj (List.mem_singleton.1 halted)
    exact ⟨d, waiting, rfl, rfl, cancelled⟩
  | @claimed d bus outcome waiting going claim =>
    obtain ⟨-, same⟩ := Prod.mk.inj (List.mem_singleton.1 halted)
    cases same
    exact absurd (congrArg Prod.snd claim) (e.bus.claim_ne_stopped d.id d.message)
  | received line taken => simp at halted
  | ended line empty gone => simp at halted
  | letGo gone alive => simp at halted

/-- A delivery joined the line because every place was taken when it was called for: by a message,
or by a delivery in line that had not run yet. -/
def CalledWhenFull (capacity : Nat) (start : Exchange) (turns : List Turn) (d : Pending) : Prop :=
  ∃ xs ys c past sender token,
    turns = xs ++ .direct (.deliver d.id sender token d.message) :: ys ∧
    start.turns? xs = some (c, past) ∧ d.token = (c.tokens.resolve token).2 ∧
    c.bus.receiving = true ∧ c.bus.queue.length + c.bus.granted.length = capacity ∧
    (c.waits = true → c.bus.queue.length = capacity)

/-- A delivery ran and found its token cancelled. -/
def FoundCancelled (start : Exchange) (turns : List Turn) (d : Pending) : Prop :=
  ∃ xs ys c past, turns = xs ++ .delivery d :: ys ∧ start.turns? xs = some (c, past) ∧
    d ∈ c.deliveries ∧
    ∃ ancestor, c.tokens.tree.Below d.token ancestor ∧ c.tokens.tree.Fired ancestor

theorem CalledWhenFull.append {d : Pending} (h : CalledWhenFull capacity start turns d)
    (more : List Turn) : CalledWhenFull capacity start (turns ++ more) d := by
  obtain ⟨xs, ys, c, past, sender, token, rfl, ran, full⟩ := h
  exact ⟨xs, ys ++ more, c, past, sender, token, by simp, ran, full⟩

theorem FoundCancelled.append {d : Pending} (h : FoundCancelled start turns d)
    (more : List Turn) : FoundCancelled start (turns ++ more) d := by
  obtain ⟨xs, ys, c, past, rfl, ran, cancelled⟩ := h
  exact ⟨xs, ys ++ more, c, past, by simp, ran, cancelled⟩

variable {bus : Bus String}

/-- Every delivery that waits joined the line when no place was free. -/
theorem calledWhenFull_of_turns? (built : Bus.withCapacity String capacity = .ok bus)
    (ran : (ofBus bus).turns? turns = some (e, done))
    (distinct : ((callsIn turns).map Prod.fst).Nodup) {d : Pending} (waits : d ∈ e.deliveries) :
    CalledWhenFull capacity (ofBus bus) turns d := by
  refine induction_of_turns?
    (P := fun xs c _ => ((callsIn xs).map Prod.fst).Nodup →
      ∀ d ∈ c.deliveries, CalledWhenFull capacity (ofBus bus) xs d)
    (fun _ _ h => absurd h List.not_mem_nil)
    (fun {xs t c c' _ _} before h turn distinct d hd => ?_)
    ran distinct d waits
  rw [callsIn_append, List.map_append] at distinct
  rcases (turned_of_turn? turn).waiting hd with waited | ⟨sender, token, rfl, alive, none, own⟩
  · exact (h distinct.of_append_left d waited).append [t]
  · have sound := sound_of_turns? built before distinct.of_append_left
    have full := (sound.places alive).1
    rw [none, Nat.add_zero] at full
    refine ⟨xs, [], c, _, sender, token, rfl, before, own, alive, full, fun still => ?_⟩
    rwa [sound.granted_eq_nil (waits_iff.1 still).1, List.length_nil, Nat.add_zero] at full

/-- Every delivery that ended as stopped ran and found its token cancelled. -/
theorem foundCancelled_of_turns? (ran : start.turns? turns = some (e, done)) {id : String}
    (halted : (id, .delivery .stopped) ∈ done) : ∃ d, d.id = id ∧ FoundCancelled start turns d := by
  refine induction_of_turns?
    (P := fun xs _ past => ∀ id, (id, Outcome.delivery .stopped) ∈ past →
      ∃ d, d.id = id ∧ FoundCancelled start xs d)
    (fun _ h => absurd h List.not_mem_nil)
    (fun {xs t c c' past new} before h turn id halted => ?_)
    ran id halted
  rcases List.mem_append.1 halted with old | halted
  · obtain ⟨d, same, found⟩ := h id old
    exact ⟨d, same, found.append [t]⟩
  · obtain ⟨d, waits, same, rfl, cancelled⟩ := (turned_of_turn? turn).stopped_of_mem halted
    exact ⟨d, same, xs, [], c, past, rfl, before, waits,
      (TokenTree.isCancelled_iff _ _).1 cancelled⟩

/-- A delivery that ended as stopped was called for when the bus was full. -/
theorem FoundCancelled.calledWhenFull {d : Pending} (h : FoundCancelled (ofBus bus) turns d)
    (built : Bus.withCapacity String capacity = .ok bus)
    (distinct : ((callsIn turns).map Prod.fst).Nodup) :
    CalledWhenFull capacity (ofBus bus) turns d := by
  obtain ⟨xs, ys, c, past, rfl, ran, waits, -⟩ := h
  rw [callsIn_append, List.map_append] at distinct
  exact (calledWhenFull_of_turns? built ran distinct.of_append_left waits).append _

/-! ## Every order of turns -/

/-- In whatever order the tasks of a bus take their turns, if no two deliveries are started under
one name.  While somebody receives, every place is taken by a message, owned by a delivery that can
go on, or free, and nobody waits in line while one is free.  When every task waits, whoever waits
waits for something that is not there.  A delivery that was stopped ran and found its token
cancelled, and it was called for when the bus was full. -/
theorem poised_of_turns (built : Bus.withCapacity String capacity = .ok bus)
    (ran : (ofBus bus).turns? turns = some (e, done))
    (distinct : ((callsIn turns).map Prod.fst).Nodup) :
    (e.bus.receiving = true →
      e.bus.queue.length + e.bus.granted.length + e.bus.free = capacity ∧
      (e.bus.free ≠ 0 → e.bus.parked = []) ∧
      ∀ id ∈ e.bus.granted, ∃ d ∈ e.deliveries, d.id = id ∧ e.look? d ≠ none) ∧
    (e.waits = true → e.Poised capacity) ∧
    ∀ id, (id, .delivery .stopped) ∈ done → ∃ d, d.id = id ∧
      FoundCancelled (ofBus bus) turns d ∧ CalledWhenFull capacity (ofBus bus) turns d := by
  have sound := sound_of_turns? built ran distinct
  refine ⟨sound.places, sound.poised (Bus.pos_of_withCapacity built), fun id halted => ?_⟩
  obtain ⟨d, same, found⟩ := foundCancelled_of_turns? ran halted
  exact ⟨d, same, found, found.calledWhenFull built distinct⟩

/-- Turns around a bus with one place.  The place that a receive frees belongs to `b`, is passed on
to `c` when `b` is dropped, and is used by it; `d` and `e` find the bus full, and `e` is stopped. -/
def handedOn : List Turn :=
  [.direct (.sender "s"), .direct (.deliver "a" "s" "t" ⟨"feed:1", [1], 0⟩),
    .direct (.deliver "b" "s" "t" ⟨"feed:1", [2], 0⟩),
    .direct (.deliver "c" "s" "t" ⟨"feed:1", [3], 0⟩), .direct (.receive "r"), .receive,
    .direct (.abort "b"), .delivery ⟨"c", ⟨"feed:1", [3], 0⟩, 0⟩,
    .direct (.deliver "d" "s" "t" ⟨"feed:1", [4], 0⟩), .direct (.child "u" "t"),
    .direct (.deliver "e" "s" "u" ⟨"feed:1", [5], 0⟩), .direct (.cancel "u"),
    .delivery ⟨"e", ⟨"feed:1", [5], 0⟩, 1⟩]

/-- The turns are possible; after them `d` waits, for a place that is taken, and `e` was stopped. -/
theorem poised_of_turns_handedOn : ∃ bus e done, Bus.withCapacity String 1 = .ok bus ∧
    (ofBus bus).turns? handedOn = some (e, done) ∧ ((callsIn handedOn).map Prod.fst).Nodup ∧
    e.pendingIds = ["d"] ∧ e.waits = true ∧ e.Poised 1 ∧
    ∃ d, d.id = "e" ∧ FoundCancelled (ofBus bus) handedOn d ∧
      CalledWhenFull 1 (ofBus bus) handedOn d := by
  obtain ⟨bus, built⟩ : ∃ bus, Bus.withCapacity String 1 = .ok bus := ⟨_, rfl⟩
  have distinct : ((callsIn handedOn).map Prod.fst).Nodup := by decide
  have result : ((ofBus bus).turns? handedOn).map
      (fun c => (c.1.pendingIds, c.1.waits, decide (("e", .delivery .stopped) ∈ c.2))) =
        some (["d"], true, true) := by
    cases built
    decide +kernel
  obtain ⟨⟨e, done⟩, ran, same⟩ := Option.map_eq_some_iff.1 result
  simp only [Prod.mk.injEq, decide_eq_true_eq] at same
  obtain ⟨waiting, waits, halted⟩ := same
  obtain ⟨-, poised, stopped⟩ := poised_of_turns built ran distinct
  exact ⟨bus, e, done, built, ran, distinct, waiting, waits, poised waits, stopped "e" halted⟩

end FeedCapture.Exchange
