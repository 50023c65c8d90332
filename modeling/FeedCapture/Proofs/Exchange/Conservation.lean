import FeedCapture.Proofs.Exchange.Outcomes
import Mathlib.Data.List.Nodup

/-!
# What goes into the bus comes out of it

The messages that were handed out and those that are still queued are the messages of the deliveries
that ended on the bus, in the order in which these were called for (`handedOut_append_queue`).  The
reason is the line: the deliveries on the bus and then those in line are always in the order of
their calls, because nobody waits while a place is free (`Balanced`).

## Main definitions

* `Exchange.Balanced` — the calls made, the deliveries on the bus and the messages handed out
  account for an exchange
-/

namespace FeedCapture.Exchange

/-- The call of a delivery that waits: its name and its message. -/
def Pending.call (d : Pending) : String × Message := (d.id, d.message)

/-- The names of the deliveries among tasks that ended on the bus, in order. -/
def deliveredIn (done : List (String × Outcome)) : List String :=
  ((deliveriesIn done).filter fun d => d.2 = .delivered).map Prod.fst

/-- The calls made so far, the calls whose deliveries are on the bus, and the messages handed out
account for an exchange whose receiver is alive. -/
structure Balanced (e : Exchange) (made accepted : List (String × Message))
    (handed : List Message) : Prop where
  alive : e.bus.receiving = true
  tidy : e.bus.Tidy
  line : e.bus.line = e.pendingIds
  order : (accepted ++ e.deliveries.map Pending.call).Sublist made
  conserved : handed ++ e.bus.queue = accepted.map Prod.snd

@[simp] theorem deliveredIn_nil : deliveredIn [] = [] := rfl

@[simp] theorem deliveredIn_append (xs ys : List (String × Outcome)) :
    deliveredIn (xs ++ ys) = deliveredIn xs ++ deliveredIn ys := by
  simp [deliveredIn]

theorem deliveredIn_map_delivered (new : List (String × Message)) :
    deliveredIn (new.map fun c => (c.1, .delivery .delivered)) = new.map Prod.fst := by
  simp [deliveredIn, deliveriesIn_map_delivery, Function.comp_def, List.filter_map]

theorem deliveredIn_map_stopped (ds : List Pending) :
    deliveredIn (ds.map fun d => (d.id, .delivery .stopped)) = [] := by
  simp [deliveredIn, deliveriesIn_map_delivery, List.filter_map, Function.comp_def]

/-! ## The receiver stays away once it is gone -/

@[simp] theorem hasReceiver_claimAll (e : Exchange) (ds : List Pending) :
    (e.claimAll ds).1.hasReceiver = e.hasReceiver := by
  induction ds generalizing e with
  | nil => rfl
  | cons d rest ih =>
    simp only [claimAll]
    split
    · next bus outcome hc => exact ih { e with bus, deliveries := e.deliveries.erase d }
    · exact ih e

@[simp] theorem hasReceiver_closeDeliveries (e : Exchange) :
    e.closeDeliveries.1.hasReceiver = e.hasReceiver := by
  unfold closeDeliveries
  split
  · rfl
  · exact hasReceiver_claimAll { e with bus := e.bus.dropReceiver } _

/-- While somebody can receive, nothing is closed. -/
theorem closeDeliveries_of_hasReceiver {e : Exchange} (h : e.hasReceiver = true) :
    e.closeDeliveries = (e, []) := by
  simp [closeDeliveries, h]

theorem hasReceiver_of_endReceives {e : Exchange} (h : e.endReceives.1.hasReceiver = true) :
    e.hasReceiver = true := by
  unfold endReceives at h
  split at h
  · simp only [hasReceiver, List.isEmpty_nil, Bool.not_true, Bool.or_false] at h
    simp [hasReceiver, h]
  · exact h

/-- A receive that stands in line keeps the receiver alive. -/
theorem hasReceiver_of_serve {e : Exchange} (h : (e.serve e.receives).1.hasReceiver = true) :
    e.hasReceiver = true := by
  cases hr : e.receives with
  | nil => simpa only [hr, serve] using h
  | cons id rest => simp [hasReceiver, hr]

theorem hasReceiver_of_settle {e : Exchange} (h : e.settle.1.hasReceiver = true) :
    e.hasReceiver = true := by
  simp only [settle, hasReceiver_closeDeliveries] at h
  have := hasReceiver_of_serve (hasReceiver_of_endReceives h)
  rwa [hasReceiver_claimAll] at this

theorem hasReceiver_of_act {e : Exchange} {s : Step} (h : (e.act s).1.hasReceiver = true) :
    e.hasReceiver = true := by
  cases s with
  | receive id =>
    simp only [act] at h
    split at h
    · next hs => simp [hasReceiver, hs]
    · exact h
  | abort id =>
    simp only [act] at h
    split at h
    · exact h
    · split at h
      · next hm =>
        have : e.receives ≠ [] := List.ne_nil_of_mem hm
        simp [hasReceiver, this]
      · exact h
  | deliver id sender token m =>
    simp only [act, startDelivery] at h
    split at h
    · split at h <;> exact h
    · exact h
  | dropBus =>
    simp only [act, hasReceiver, Bool.false_or] at h
    simp only [hasReceiver, Bool.or_assoc, h, Bool.or_true]
  | dropStream =>
    simp only [act, hasReceiver, Bool.or_false] at h
    simp only [hasReceiver, Bool.or_eq_true] at h ⊢
    exact h.imp_left .inl
  | _ =>
    simp only [act] at h
    repeat' split at h
    all_goals exact h

theorem hasReceiver_of_step {e : Exchange} {s : Step} (h : (e.step s).1.hasReceiver = true) :
    e.hasReceiver = true := hasReceiver_of_act (hasReceiver_of_settle h)

/-- A run at whose end somebody can receive begins with somebody who can. -/
theorem hasReceiver_of_run {e : Exchange} {steps : List Step}
    (h : (e.run steps).1.hasReceiver = true) : e.hasReceiver = true := by
  induction steps generalizing e with
  | nil => exact h
  | cons s rest ih => exact hasReceiver_of_step (ih h)

/-! ## What letting the tasks run does to the account -/

namespace Balanced

variable {e : Exchange} {made accepted : List (String × Message)} {handed : List Message}

/-- The deliveries in line have different names when the calls have. -/
theorem nodup_pendingIds (h : Balanced e made accepted handed)
    (distinct : (made.map Prod.fst).Nodup) : e.pendingIds.Nodup := by
  have waiting : (e.deliveries.map Pending.call).Sublist made :=
    (List.sublist_append_right _ _).trans h.order
  have names := waiting.map Prod.fst
  rw [List.map_map] at names
  exact names.nodup distinct

/-- Further calls do not disturb the account. -/
theorem mono (h : Balanced e made accepted handed) (more : List (String × Message)) :
    Balanced e (made ++ more) accepted handed :=
  { h with order := h.order.trans (List.sublist_append_left _ _) }

/-- A delivery that leaves the line takes its call out of those that wait. -/
theorem leave (h : Balanced e made accepted handed) (distinct : (made.map Prod.fst).Nodup)
    (id : String) :
    Balanced { e with
      bus := e.bus.leave id
      deliveries := e.deliveries.filter fun d => d.id ≠ id } made accepted handed where
  alive := by rw [(e.bus.frame_leave id).2.1, h.alive]
  tidy := h.tidy.leave id
  line := by
    rw [Bus.line_leave, h.line, (h.nodup_pendingIds distinct).erase_eq_filter, pendingIds,
      pendingIds, List.filter_map]
    exact congrArg _ (List.filter_congr fun d _ => by by_cases c : d.id = id <;> simp [c])
  order := by
    refine List.Sublist.trans ?_ h.order
    exact ((List.filter_sublist).map _).append_left _
  conserved := by rw [Bus.queue_leave, h.conserved]

/-- Several deliveries that leave the line take their calls out of those that wait. -/
theorem leaveAll (h : Balanced e made accepted handed) (distinct : (made.map Prod.fst).Nodup)
    (ds : List Pending) :
    Balanced { e with
      bus := ds.foldl (fun bus d => bus.leave d.id) e.bus
      deliveries := e.deliveries.filter fun d => d.id ∉ ds.map (·.id) } made accepted handed := by
  induction ds generalizing e with
  | nil => simpa using h
  | cons d rest ih =>
    have next := ih (h.leave distinct d.id)
    have same : (e.deliveries.filter fun x => x.id ∉ (d :: rest).map (·.id)) =
        (e.deliveries.filter fun x => x.id ≠ d.id).filter fun x => x.id ∉ rest.map (·.id) := by
      rw [List.filter_filter]
      exact List.filter_congr fun x _ => by by_cases c : x.id = d.id <;> simp [c]
    rw [same]
    exact next

/-- Ending the deliveries whose token is cancelled leaves the account in order. -/
theorem stopDeliveries (h : Balanced e made accepted handed)
    (distinct : (made.map Prod.fst).Nodup) :
    Balanced e.stopDeliveries.1 made accepted handed := by
  have all := h.leaveAll distinct (e.deliveries.filter fun d => e.tokens.tree.isCancelled d.token)
  have same : (e.deliveries.filter fun d => d.id ∉
        (e.deliveries.filter fun d => e.tokens.tree.isCancelled d.token).map (·.id)) =
      e.deliveries.filter fun d => !e.tokens.tree.isCancelled d.token := by
    refine List.filter_congr fun d hd => ?_
    -- a name among the stopped ones is the name of no other delivery
    have inj := List.inj_on_of_nodup_map (h.nodup_pendingIds distinct) hd
    by_cases c : e.tokens.tree.isCancelled d.token = true
    · have : d.id ∈ (e.deliveries.filter fun d => e.tokens.tree.isCancelled d.token).map (·.id) :=
        List.mem_map.2 ⟨d, List.mem_filter.2 ⟨hd, c⟩, rfl⟩
      simp only [this, c, not_true, decide_false, Bool.not_true]
    · simp only [c, Bool.not_false, decide_eq_true_eq]
      intro hm
      obtain ⟨x, hx, hid⟩ := List.mem_map.1 hm
      obtain ⟨hx, cx⟩ := List.mem_filter.1 hx
      exact c (inj hx hid.symm ▸ cx)
  rw [same] at all
  exact all

/-- A delivery at the head of the line that owns a place puts its message on the bus. -/
theorem claim {d : Pending} {rest : List Pending} {b : Bus String} {o : Delivery}
    (h : Balanced e made accepted handed) (hd : e.deliveries = d :: rest)
    (hc : e.bus.claim d.id d.message = (b, some o)) :
    o = .delivered ∧
      Balanced { e with bus := b, deliveries := rest } made (accepted ++ [d.call]) handed := by
  have tidy := h.tidy.claim h.alive d.id d.message
  have line := h.line
  unfold Bus.claim at hc tidy
  simp only [h.alive, Bool.not_true, Bool.false_eq_true, if_false] at hc tidy
  split at hc
  · next hg =>
    simp only [hg, if_true] at tidy
    cases hc
    refine ⟨rfl, rfl, tidy, ?_, ?_, ?_⟩
    · simp only [Bus.line, pendingIds, hd, List.map_cons] at line ⊢
      rw [← List.erase_append_left _ hg, line, List.erase_cons_head]
    · simpa [hd] using h.order
    · rw [← List.append_assoc, h.conserved]
      simp [Pending.call]
  · cases hc

/-- Who owns no place goes on waiting. -/
theorem claim_eq_none (h : Balanced e made accepted handed) (none : e.bus.granted = [])
    (d : Pending) : e.bus.claim d.id d.message = (e.bus, .none) := by
  simp [Bus.claim, h.alive, none]

/-- When every delivery has looked at the bus, those that owned a place are on it, in the order of
the line, and no place is left over. -/
theorem claimAll {ds : List Pending} (h : Balanced e made accepted handed)
    (hd : e.deliveries = ds ∨ e.bus.granted = []) :
    ∃ new, Balanced (e.claimAll ds).1 made (accepted ++ new) handed ∧
      (e.claimAll ds).1.bus.granted = [] ∧
      (e.claimAll ds).2 = new.map fun c => (c.1, .delivery .delivered) := by
  induction ds generalizing e accepted with
  | nil =>
    refine ⟨[], by simpa [Exchange.claimAll] using h, ?_, rfl⟩
    rcases hd with hd | hg
    · have line := h.line
      simp only [Bus.line, pendingIds, hd, List.map_nil, List.append_eq_nil_iff] at line
      exact line.1
    · exact hg
  | cons d rest ih =>
    simp only [Exchange.claimAll]
    split
    · next b o hc =>
      rcases hd with hd | hg
      · obtain ⟨rfl, next⟩ := h.claim hd hc
        have erased : e.deliveries.erase d = rest := by rw [hd, List.erase_cons_head]
        rw [erased]
        obtain ⟨new, kept, none, done⟩ := ih next (.inl rfl)
        exact ⟨d.call :: new, by simpa using kept, none, by rw [done]; rfl⟩
      · rw [h.claim_eq_none hg d] at hc
        cases hc
    · next b hc =>
      refine ih h (.inr ?_)
      rcases hd with hd | hg
      · -- the head of the line owns a place if anybody does
        cases hg : e.bus.granted with
        | nil => rfl
        | cons g gs =>
          have line := h.line
          simp only [Bus.line, pendingIds, hd, hg, List.map_cons, List.cons_append,
            List.cons.injEq] at line
          simp [Bus.claim, h.alive, hg, line.1] at hc
      · exact hg

/-- Taking the oldest message hands it out. -/
theorem take? {m : Message} {b : Bus String} (h : Balanced e made accepted handed)
    (ht : e.bus.take? = some (m, b)) :
    Balanced { e with bus := b } made accepted (handed ++ [m]) where
  alive := by rw [(Bus.frame_of_take? ht).2.1, h.alive]
  tidy := h.tidy.take? ht
  line := by rw [Bus.line_of_take? ht, h.line]; rfl
  order := h.order
  conserved := by rw [← h.conserved, Bus.queue_of_take? ht]; simp

/-- The account says nothing about the receives that stand in line. -/
theorem withReceives (h : Balanced e made accepted handed) (receives : List String) :
    Balanced { e with receives } made accepted handed :=
  ⟨h.alive, h.tidy, h.line, h.order, h.conserved⟩

/-- Serving the receives hands out the oldest messages, and the deliveries that get a place in the
meantime come after all that were on the bus. -/
theorem serve (h : Balanced e made accepted handed) (none : e.bus.granted = [])
    (ids : List String) :
    ∃ new, Balanced (e.serve ids).1 made (accepted ++ new)
        (handed ++ messagesIn (e.serve ids).2) ∧
      (e.serve ids).1.bus.granted = [] ∧ deliveredIn (e.serve ids).2 = new.map Prod.fst := by
  induction ids generalizing e accepted handed with
  | nil => exact ⟨[], by simpa [Exchange.serve] using h, none, rfl⟩
  | cons id rest ih =>
    simp only [Exchange.serve]
    split
    · exact ⟨[], by simpa using h, none, rfl⟩
    · next m b ht =>
      have taken := (h.take? ht).withReceives rest
      obtain ⟨first, kept, none₁, done₁⟩ := taken.claimAll (.inl rfl)
      obtain ⟨later, kept, none₂, done₂⟩ := ih kept none₁
      refine ⟨first ++ later, ?_, none₂, ?_⟩
      · have quiet := messagesIn_map_delivery Prod.fst .delivered first
        simp only [List.append_assoc, List.singleton_append] at kept
        simpa [done₁, quiet] using kept
      · have named := deliveredIn_map_delivered first
        simp only [deliveredIn] at named done₂
        simp [deliveredIn, done₁, named, done₂]

/-- Ending the receives of an empty bus without senders leaves the account in order. -/
theorem endReceives (h : Balanced e made accepted handed) :
    Balanced e.endReceives.1 made accepted handed ∧
      e.endReceives.1.bus.granted = e.bus.granted := by
  unfold Exchange.endReceives
  split
  · exact ⟨h.withReceives [], rfl⟩
  · exact ⟨h, rfl⟩

/-- Letting every task run until it waits leaves the account in order, and no place is handed over
and not used. -/
theorem settle (h : Balanced e made accepted handed) (distinct : (made.map Prod.fst).Nodup)
    (alive : e.settle.1.hasReceiver = true) :
    ∃ new, Balanced e.settle.1 made (accepted ++ new) (handed ++ messagesIn e.settle.2) ∧
      e.settle.1.bus.granted = [] ∧ deliveredIn e.settle.2 = new.map Prod.fst := by
  obtain ⟨first, kept, none₁, done₁⟩ := (h.stopDeliveries distinct).claimAll (.inl rfl)
  obtain ⟨later, kept, none₂, done₂⟩ := kept.serve none₁ _
  obtain ⟨kept, same⟩ := kept.endReceives
  simp only [Exchange.settle, hasReceiver_closeDeliveries] at alive
  have ended : ∀ e : Exchange, messagesIn e.endReceives.2 = [] ∧
      deliveredIn e.endReceives.2 = [] := by
    intro e
    unfold Exchange.endReceives
    split
    · simp [deliveredIn]
    · exact ⟨rfl, rfl⟩
  have stopped : messagesIn e.stopDeliveries.2 = [] ∧ deliveredIn e.stopDeliveries.2 = [] :=
    ⟨messagesIn_map_delivery _ _ _, deliveredIn_map_stopped _⟩
  have quiet := messagesIn_map_delivery Prod.fst .delivered first
  refine ⟨first ++ later, ?_, ?_, ?_⟩
  · simpa [Exchange.settle, closeDeliveries_of_hasReceiver alive, ended, stopped, done₁, quiet]
      using kept
  · simpa [Exchange.settle, closeDeliveries_of_hasReceiver alive, none₂] using same
  · simp [Exchange.settle, closeDeliveries_of_hasReceiver alive, ended, stopped, done₁, done₂,
      deliveredIn_map_delivered]

/-! ## Steps and runs -/

/-- A delivery that is started is queued at once or joins the line.  It is queued only when nobody
is in line, so it overtakes nobody. -/
theorem startDelivery (h : Balanced e made accepted handed) (none : e.bus.granted = [])
    (id token : String) (m : Message) :
    ∃ new, Balanced (e.startDelivery id token m).1 (made ++ [(id, m)]) (accepted ++ new) handed ∧
      messagesIn (e.startDelivery id token m).2.1 = [] ∧
      deliveredIn (e.startDelivery id token m).2.1 = new.map Prod.fst := by
  unfold Exchange.startDelivery
  dsimp only
  split
  · next b ho =>
    obtain ⟨-, free, rfl⟩ := Bus.offer_eq_queued ho
    have tidy := h.tidy.offer m
    rw [ho] at tidy
    have nobody : e.bus.parked = [] := by
      by_contra c
      have := h.tidy.packed c
      unfold Bus.free at free
      omega
    have idle : e.deliveries = [] := by
      have line := h.line
      simpa [Bus.line, none, nobody, pendingIds] using line.symm
    refine ⟨[(id, m)], ⟨h.alive, tidy, h.line, ?_, ?_⟩, rfl, rfl⟩
    · have order := h.order
      simp only [idle, List.map_nil, List.append_nil] at order ⊢
      exact order.append (.refl _)
    · rw [← List.append_assoc, h.conserved]
      simp
  · next b ho =>
    have := (Bus.offer_eq_closed ho).1
    rw [h.alive] at this
    cases this
  · next b ho =>
    obtain ⟨-, full, rfl⟩ := Bus.offer_eq_full ho
    refine ⟨[], ⟨h.alive, h.tidy.park full id, ?_, ?_, ?_⟩, rfl, rfl⟩
    · rw [Bus.line_park, h.line]
      simp [pendingIds]
    · simp only [List.append_nil, List.map_append, ← List.append_assoc]
      exact h.order.append (.refl _)
    · simpa using h.conserved

/-- The direct part of a step leaves the account in order. -/
theorem act (h : Balanced e made accepted handed) (none : e.bus.granted = []) (s : Step)
    (distinct : (made.map Prod.fst).Nodup) :
    ∃ new, Balanced (e.act s).1 (made ++ calls [s]) (accepted ++ new)
        (handed ++ ((e.act s).2.reply.message?.toList ++ messagesIn (e.act s).2.done)) ∧
      deliveredIn (e.act s).2.done = new.map Prod.fst := by
  have quiet : ∀ {e' : Exchange} {a : Answer}, Balanced e' made accepted handed →
      a.reply.message? = .none → a.done = [] →
      ∃ new, Balanced e' (made ++ calls [s]) (accepted ++ new)
          (handed ++ (a.reply.message?.toList ++ messagesIn a.done)) ∧
        deliveredIn a.done = new.map Prod.fst := by
    intro e' a kept hr hd
    exact ⟨[], by simpa [hr, hd] using kept.mono _, by simp [hd]⟩
  have same : ∀ {e' : Exchange} {a : Answer}, e'.bus = e.bus → e'.deliveries = e.deliveries →
      a.reply.message? = .none → a.done = [] →
      ∃ new, Balanced e' (made ++ calls [s]) (accepted ++ new)
          (handed ++ (a.reply.message?.toList ++ messagesIn a.done)) ∧
        deliveredIn a.done = new.map Prod.fst := by
    intro e' a hb hd
    exact quiet ⟨hb ▸ h.alive, hb ▸ h.tidy, by rw [hb, pendingIds, hd, h.line, pendingIds],
      hd ▸ h.order, hb ▸ h.conserved⟩
  have closed : Balanced { e with bus := (e.bus.close).1 } made accepted handed :=
    ⟨h.alive, ⟨h.tidy.bounded, h.tidy.packed⟩, h.line, h.order, h.conserved⟩
  cases s with
  | deliver id sender token m =>
    simp only [Exchange.act]
    split
    · obtain ⟨new, kept, hm, hd⟩ := h.startDelivery none id token m
      exact ⟨new, by simpa [calls, Reply.message?, hm] using kept, hd⟩
    · exact same rfl rfl rfl rfl
  | tryReceive =>
    simp only [Exchange.act]
    split
    · exact same rfl rfl rfl rfl
    · split
      · exact same rfl rfl rfl rfl
      · split
        · next m b ht =>
          exact ⟨[], by simpa [Reply.message?] using (h.take? ht).mono _, rfl⟩
        · exact same rfl rfl rfl rfl
  | abort id =>
    simp only [Exchange.act]
    split
    · exact quiet (h.leave distinct id) rfl rfl
    · split <;> exact same rfl rfl rfl rfl
  | close =>
    simp only [Exchange.act]
    split
    · exact same rfl rfl rfl rfl
    · exact quiet closed rfl rfl
  | dropBus =>
    have gone : Balanced (e.act .dropBus).1 made accepted handed :=
      ⟨closed.alive, closed.tidy, closed.line, closed.order, closed.conserved⟩
    exact quiet gone rfl rfl
  | sender id =>
    simp only [Exchange.act]
    split
    · exact same rfl rfl rfl rfl
    · split <;> exact same rfl rfl rfl rfl
  | cloneSender id source => simp only [Exchange.act]; split <;> exact same rfl rfl rfl rfl
  | receive id => simp only [Exchange.act]; split <;> exact same rfl rfl rfl rfl
  | isClosed =>
    refine same rfl rfl ?_ rfl
    simp only [Exchange.act]
    split <;> rfl
  | _ => exact same rfl rfl rfl rfl

/-- A step leaves the account in order. -/
theorem step (h : Balanced e made accepted handed) (none : e.bus.granted = []) (s : Step)
    (distinct : ((made ++ calls [s]).map Prod.fst).Nodup)
    (alive : (e.step s).1.hasReceiver = true) :
    ∃ new, Balanced (e.step s).1 (made ++ calls [s]) (accepted ++ new)
        (handed ++ handedOut [(e.step s).2]) ∧
      (e.step s).1.bus.granted = [] ∧ deliveredIn (e.step s).2.done = new.map Prod.fst := by
  have before : (made.map Prod.fst).Nodup := by
    rw [List.map_append] at distinct
    exact distinct.of_append_left
  obtain ⟨first, kept, done₁⟩ := h.act none s before
  obtain ⟨later, kept, none, done₂⟩ := kept.settle distinct alive
  refine ⟨first ++ later, ?_, none, ?_⟩
  · simpa [Exchange.step, handedOut] using kept
  · simp [Exchange.step, done₁, done₂]

/-- A run at whose end somebody can receive leaves the account in order. -/
theorem run (h : Balanced e made accepted handed) (none : e.bus.granted = []) (steps : List Step)
    (distinct : ((made ++ calls steps).map Prod.fst).Nodup)
    (alive : (e.run steps).1.hasReceiver = true) :
    ∃ new, Balanced (e.run steps).1 (made ++ calls steps) (accepted ++ new)
        (handed ++ handedOut (e.run steps).2) ∧
      (e.run steps).2.flatMap (fun a => deliveredIn a.done) = new.map Prod.fst := by
  induction steps generalizing e made accepted handed with
  | nil => exact ⟨[], by simpa [Exchange.run, calls, handedOut] using h, rfl⟩
  | cons s rest ih =>
    have split : calls (s :: rest) = calls [s] ++ calls rest := by
      simp only [calls, ← List.filterMap_append, List.singleton_append]
    rw [split, ← List.append_assoc] at distinct ⊢
    have before : ((made ++ calls [s]).map Prod.fst).Nodup := by
      rw [List.map_append] at distinct
      exact distinct.of_append_left
    have there : (e.step s).1.hasReceiver = true := hasReceiver_of_run alive
    obtain ⟨first, kept, none, done₁⟩ := h.step none s before there
    obtain ⟨later, kept, done₂⟩ := ih kept none distinct alive
    refine ⟨first ++ later, ?_, ?_⟩
    · simpa [Exchange.run, handedOut] using kept
    · simp [Exchange.run, done₁, done₂]

end Balanced

/-- A new exchange, with nothing called for and nothing handed out, is balanced. -/
theorem balanced_ofBus {capacity : Nat} {bus : Bus String}
    (h : Bus.withCapacity String capacity = .ok bus) : Balanced (ofBus bus) [] [] [] := by
  have tidy := Bus.tidy_withCapacity h
  obtain rfl := Bus.eq_of_withCapacity h
  exact ⟨rfl, tidy, rfl, .refl _, rfl⟩

/-! ## The main statement -/

/-- Of calls with different names, those that are named by some of them in order are these. -/
theorem filter_mem_of_sublist {some all : List (String × Message)} (h : some.Sublist all)
    (distinct : (all.map Prod.fst).Nodup) :
    (all.filter fun c => c.1 ∈ some.map Prod.fst) = some := by
  induction h with
  | slnil => rfl
  | @cons some all c h ih =>
    have absent : c.1 ∉ some.map Prod.fst := fun hc =>
      (List.nodup_cons.1 distinct).1 ((h.map Prod.fst).subset hc)
    rw [List.filter_cons_of_neg (by simpa using absent), ih (List.nodup_cons.1 distinct).2]
  | @cons_cons some all c h ih =>
    have absent := (List.nodup_cons.1 distinct).1
    have same : (all.filter fun x => x.1 ∈ (c :: some).map Prod.fst) =
        all.filter fun x => x.1 ∈ some.map Prod.fst := by
      refine List.filter_congr fun x hx => ?_
      have hne : x.1 ≠ c.1 := fun hc => absent (hc ▸ List.mem_map_of_mem hx)
      simp [hne]
    rw [List.filter_cons_of_pos (by simp), same, ih (List.nodup_cons.1 distinct).2]

theorem mem_flatMap_deliveredIn {answers : List Answer} {id : String} :
    id ∈ answers.flatMap (fun a => deliveredIn a.done) ↔ (id, .delivered) ∈ ended answers := by
  simp [deliveredIn, ended]

/-- **What goes into the bus comes out of it.**  Whatever is done with a bus, as long as its
receiver is alive: the messages handed out, followed by those still queued, are the messages of the
deliveries that ended on the bus, in the order of their calls.  A delivery ends at most once, and
one that is aborted while it waits never ends. -/
theorem handedOut_append_queue {capacity : Nat} {bus : Bus String} {steps : List Step}
    {e : Exchange} {answers : List Answer}
    (built : Bus.withCapacity String capacity = .ok bus)
    (ran : (ofBus bus).run steps = (e, answers))
    (distinct : ((calls steps).map Prod.fst).Nodup)
    (alive : e.hasReceiver = true) :
    handedOut answers ++ e.bus.queue =
        ((calls steps).filter fun c => (c.1, .delivered) ∈ ended answers).map Prod.snd ∧
      ((ended answers).map Prod.fst).Nodup ∧
      ∀ before id after, steps = before ++ .abort id :: after →
        id ∈ ((ofBus bus).run before).1.pendingIds → ∀ d, (id, d) ∉ ended answers := by
  obtain ⟨rfl, rfl⟩ := Prod.mk.injEq .. ▸ ran.symm
  have start := balanced_ofBus built
  have none : (ofBus bus).bus.granted = [] := by
    have := start.line
    simp only [Bus.line, List.append_eq_nil_iff, pendingIds, ofBus, List.map_nil] at this
    exact this.1
  obtain ⟨accepted, kept, named⟩ := start.run none steps (by simpa using distinct) alive
  refine ⟨?_, ?_, ?_⟩
  · have all : accepted.Sublist (calls steps) := by
      simpa using (List.sublist_append_left _ _).trans kept.order
    have those := filter_mem_of_sublist all distinct
    simp only [← named, mem_flatMap_deliveredIn] at those
    simpa [those] using kept.conserved
  · exact (nodup_of_run (by simpa [pendingIds, ofBus] using distinct)).of_append_left
  · rintro before id after rfl waiting d
    exact notMem_ended_of_abort (by simpa [pendingIds, ofBus] using distinct) waiting d

/-- The steps of a bus for one message: two deliveries wait, one of them is aborted, and a receive
makes room for the other. -/
def crowded : List Step :=
  [.sender "s", .deliver "a" "s" "t" ⟨"feed:1", [1], 0⟩, .deliver "b" "s" "t" ⟨"feed:1", [2], 0⟩,
    .deliver "c" "s" "t" ⟨"feed:1", [3], 0⟩, .abort "b", .receive "r"]

/-- The steps keep their promise on a bus with one place: the first message was handed out, the
third one is queued, and the second one is nowhere. -/
theorem handedOut_append_queue_crowded :
    ∃ bus, Bus.withCapacity String 1 = .ok bus ∧
      ((calls crowded).map Prod.fst).Nodup ∧
      ((ofBus bus).run crowded).1.hasReceiver = true ∧
      handedOut ((ofBus bus).run crowded).2 ++ ((ofBus bus).run crowded).1.bus.queue =
        [⟨"feed:1", [1], 0⟩, ⟨"feed:1", [3], 0⟩] := by
  obtain ⟨bus, built⟩ : ∃ bus, Bus.withCapacity String 1 = .ok bus := ⟨_, rfl⟩
  have distinct : ((calls crowded).map Prod.fst).Nodup := by decide
  have alive : ((ofBus bus).run crowded).1.hasReceiver = true := by
    cases built
    decide +kernel
  have balance := handedOut_append_queue built rfl distinct alive
  refine ⟨bus, built, distinct, alive, balance.1.trans ?_⟩
  cases built
  decide +kernel

end FeedCapture.Exchange
