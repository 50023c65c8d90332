import FeedCapture.Bus.Exchange
import Mathlib.Data.List.Nodup
import Mathlib.Data.List.Perm.Subperm

/-!
# What becomes of deliveries

Every delivery that was called for waits, is over or was given up, and it is over at most once.  The
deliveries that end in a run and those that wait after it are among those that waited before it and
those that it called for, each counted once (`subperm_of_run`).

## Main definitions

* `Exchange.calls` — the deliveries that steps call for
* `Exchange.ended`, `Exchange.handedOut` — the deliveries that ended, and the messages handed out
-/

namespace FeedCapture.Exchange

/-- The deliveries that some steps call for, with the names and messages of the calls, in order. -/
def calls (steps : List Step) : List (String × Message) :=
  steps.filterMap fun
    | .deliver id _ _ m => some (id, m)
    | _ => none

/-- How a delivery ended, if the outcome is that of a delivery. -/
def Outcome.delivery? : Outcome → Option Delivery
  | .delivery d => some d
  | _ => none

/-- The message that a receive got, if the outcome is that of such a receive. -/
def Outcome.message? : Outcome → Option Message
  | .received m => some m
  | _ => none

/-- The deliveries among tasks that ended, and how they ended. -/
def deliveriesIn (done : List (String × Outcome)) : List (String × Delivery) :=
  done.filterMap fun t => t.2.delivery?.map fun d => (t.1, d)

/-- The messages that receives got among tasks that ended, in order. -/
def messagesIn (done : List (String × Outcome)) : List Message :=
  done.filterMap fun t => t.2.message?

/-- The message of a direct answer. -/
def Reply.message? : Reply → Option Message
  | .got m => m
  | _ => none

/-- The deliveries that ended with some steps, and how they ended. -/
def ended (answers : List Answer) : List (String × Delivery) :=
  answers.flatMap fun a => deliveriesIn a.done

/-- The messages that some steps handed out, in order: first that of the direct answer, then those
of the receives that ended. -/
def handedOut (answers : List Answer) : List Message :=
  answers.flatMap fun a => a.reply.message?.toList ++ messagesIn a.done

/-- The names of the deliveries that wait, in the order of the line. -/
def pendingIds (e : Exchange) : List String := e.deliveries.map (·.id)

@[simp] theorem deliveriesIn_append (xs ys : List (String × Outcome)) :
    deliveriesIn (xs ++ ys) = deliveriesIn xs ++ deliveriesIn ys := List.filterMap_append ..

@[simp] theorem messagesIn_append (xs ys : List (String × Outcome)) :
    messagesIn (xs ++ ys) = messagesIn xs ++ messagesIn ys := List.filterMap_append ..

@[simp] theorem deliveriesIn_nil : deliveriesIn [] = [] := rfl

@[simp] theorem messagesIn_nil : messagesIn [] = [] := rfl

@[simp] theorem deliveriesIn_cons_delivery (id : String) (d : Delivery)
    (done : List (String × Outcome)) :
    deliveriesIn ((id, .delivery d) :: done) = (id, d) :: deliveriesIn done := rfl

@[simp] theorem messagesIn_cons_delivery (id : String) (d : Delivery)
    (done : List (String × Outcome)) :
    messagesIn ((id, .delivery d) :: done) = messagesIn done := rfl

@[simp] theorem deliveriesIn_cons_received (id : String) (m : Message)
    (done : List (String × Outcome)) :
    deliveriesIn ((id, .received m) :: done) = deliveriesIn done := rfl

@[simp] theorem messagesIn_cons_received (id : String) (m : Message)
    (done : List (String × Outcome)) :
    messagesIn ((id, .received m) :: done) = m :: messagesIn done := rfl

/-- The deliveries that end all in one way. -/
theorem deliveriesIn_map_delivery {α : Type} (name : α → String) (d : Delivery) (tasks : List α) :
    deliveriesIn (tasks.map fun t => (name t, .delivery d)) = tasks.map fun t => (name t, d) := by
  induction tasks with
  | nil => rfl
  | cons t tasks ih => simp [ih]

theorem messagesIn_map_delivery {α : Type} (name : α → String) (d : Delivery) (tasks : List α) :
    messagesIn (tasks.map fun t => (name t, .delivery d)) = [] := by
  induction tasks with
  | nil => rfl
  | cons t tasks ih => simp [ih]

@[simp] theorem deliveriesIn_map_ended (ids : List String) :
    deliveriesIn (ids.map fun id => (id, .ended)) = [] := by
  induction ids with
  | nil => rfl
  | cons id ids ih => exact ih

@[simp] theorem messagesIn_map_ended (ids : List String) :
    messagesIn (ids.map fun id => (id, .ended)) = [] := by
  induction ids with
  | nil => rfl
  | cons id ids ih => exact ih

/-! ## Runs -/

theorem run_append (e : Exchange) (xs ys : List Step) :
    e.run (xs ++ ys) =
      (((e.run xs).1.run ys).1, (e.run xs).2 ++ ((e.run xs).1.run ys).2) := by
  induction xs generalizing e with
  | nil => rfl
  | cons s xs ih => simp only [List.cons_append, run, ih]

/-! ## Every delivery is accounted for once -/

/-- The names of the deliveries that ended among some tasks, then those that wait. -/
def accounted (done : List (String × Outcome)) (e : Exchange) : List String :=
  (deliveriesIn done).map Prod.fst ++ e.pendingIds

theorem accounted_append (xs ys : List (String × Outcome)) (e : Exchange) :
    accounted (xs ++ ys) e = (deliveriesIn xs).map Prod.fst ++ accounted ys e := by
  simp [accounted]

theorem perm_stopDeliveries (e : Exchange) :
    (accounted e.stopDeliveries.2 e.stopDeliveries.1).Perm e.pendingIds := by
  simp only [accounted, stopDeliveries, deliveriesIn_map_delivery, List.map_map, pendingIds,
    Function.comp_def]
  have parts := List.filter_append_perm (fun d => e.tokens.tree.isCancelled d.token) e.deliveries
  rw [← List.map_append]
  exact parts.map (·.id)

theorem perm_claimAll {ds : List Pending} {e : Exchange} (h : ds.Sublist e.deliveries) :
    (accounted (e.claimAll ds).2 (e.claimAll ds).1).Perm e.pendingIds := by
  induction ds generalizing e with
  | nil => exact .refl _
  | cons d rest ih =>
    simp only [claimAll]
    split
    · next bus outcome hc =>
      have kept : rest.Sublist (e.deliveries.erase d) := by simpa using h.erase d
      have mem : d ∈ e.deliveries := h.subset (List.mem_cons_self ..)
      have left := ih (e := { e with bus, deliveries := e.deliveries.erase d }) kept
      have back := ((List.perm_cons_erase mem).map (·.id)).symm
      simp only [accounted, deliveriesIn_cons_delivery, List.map_cons, List.cons_append] at left ⊢
      exact (left.cons d.id).trans back
    · exact ih ((List.sublist_cons_self d rest).trans h)

theorem perm_serve (ids : List String) (e : Exchange) :
    (accounted (e.serve ids).2 (e.serve ids).1).Perm e.pendingIds := by
  induction ids generalizing e with
  | nil => exact .refl _
  | cons id rest ih =>
    simp only [serve]
    split
    · exact .refl _
    · next m bus ht =>
      let e₁ : Exchange := { e with bus, receives := rest }
      have claimed := perm_claimAll (e := e₁) (List.Sublist.refl _)
      have served := ih (e₁.claimAll e₁.deliveries).1
      rw [List.cons_append, accounted, deliveriesIn_cons_received, ← accounted, accounted_append]
      exact (served.append_left _).trans claimed

theorem perm_endReceives (e : Exchange) :
    (accounted e.endReceives.2 e.endReceives.1).Perm e.pendingIds := by
  unfold endReceives
  split
  · simp [accounted, pendingIds]
  · exact .refl _

theorem perm_closeDeliveries (e : Exchange) :
    (accounted e.closeDeliveries.2 e.closeDeliveries.1).Perm e.pendingIds := by
  unfold closeDeliveries
  split
  · exact .refl _
  · exact perm_claimAll (e := { e with bus := e.bus.dropReceiver }) (List.Sublist.refl _)

/-- Letting the tasks run keeps every delivery: it ends or goes on waiting. -/
theorem perm_settle (e : Exchange) :
    (accounted e.settle.2 e.settle.1).Perm e.pendingIds := by
  simp only [settle, accounted_append, List.append_assoc]
  refine List.Perm.trans (.append_left _ ?_) (perm_stopDeliveries e)
  refine List.Perm.trans (.append_left _ ?_) (perm_claimAll (List.Sublist.refl _))
  refine List.Perm.trans (.append_left _ ?_) (perm_serve _ _)
  refine List.Perm.trans (.append_left _ ?_) (perm_endReceives _)
  exact perm_closeDeliveries _

/-- The direct part of a step ends a delivery only that it calls for itself. -/
theorem subperm_of_act (e : Exchange) (s : Step) :
    (accounted (e.act s).2.done (e.act s).1).Subperm
      (e.pendingIds ++ (calls [s]).map Prod.fst) := by
  have same : ∀ {e' : Exchange} {a : Answer}, e'.deliveries = e.deliveries → a.done = [] →
      (accounted a.done e').Subperm (e.pendingIds ++ (calls [s]).map Prod.fst) := by
    intro e' a hd ha
    simp only [accounted, ha, deliveriesIn_nil, List.map_nil, List.nil_append, pendingIds, hd]
    exact (List.sublist_append_left _ _).subperm
  cases s with
  | deliver id sender token m =>
    simp only [act]
    split
    · simp only [startDelivery, calls, List.filterMap_cons, List.filterMap_nil, List.map_cons,
        List.map_nil]
      split
      · exact List.perm_append_comm.subperm
      · exact List.perm_append_comm.subperm
      · simpa [accounted, pendingIds] using List.Subperm.refl _
    · exact same rfl rfl
  | abort id =>
    simp only [act]
    split
    · refine List.Sublist.subperm ?_
      refine List.Sublist.trans ?_ (List.sublist_append_left _ _)
      exact (List.filter_sublist).map _
    · split <;> exact same rfl rfl
  | tryReceive =>
    simp only [act]
    split
    · exact same rfl rfl
    · split
      · exact same rfl rfl
      · split <;> exact same rfl rfl
  | sender id =>
    simp only [act]
    split
    · exact same rfl rfl
    · split <;> exact same rfl rfl
  | cloneSender id source => simp only [act]; split <;> exact same rfl rfl
  | receive id => simp only [act]; split <;> exact same rfl rfl
  | close => simp only [act]; split <;> exact same rfl rfl
  | _ => exact same rfl rfl

theorem subperm_of_step (e : Exchange) (s : Step) :
    (accounted (e.step s).2.done (e.step s).1).Subperm
      (e.pendingIds ++ (calls [s]).map Prod.fst) := by
  simp only [step, accounted_append]
  exact ((perm_settle _).append_left _).subperm.trans (subperm_of_act e s)

/-- The deliveries that end in a run and those that wait after it are among those that waited before
it and those that it called for, each counted once. -/
theorem subperm_of_run (e : Exchange) (steps : List Step) :
    ((ended (e.run steps).2).map Prod.fst ++ (e.run steps).1.pendingIds).Subperm
      (e.pendingIds ++ (calls steps).map Prod.fst) := by
  induction steps generalizing e with
  | nil => exact (List.sublist_append_left _ _).subperm
  | cons s rest ih =>
    have first := subperm_of_step e s
    have later := ih (e.step s).1
    have split : calls (s :: rest) = calls [s] ++ calls rest := by
      simp only [calls, ← List.filterMap_append, List.singleton_append]
    simp only [run, ended, List.flatMap_cons, List.map_append, List.append_assoc, split] at later ⊢
    refine ((List.subperm_append_left _).2 later).trans ?_
    rw [← List.append_assoc, ← List.append_assoc]
    exact (List.subperm_append_right _).2 first

/-- Where the names of the calls differ, no delivery ends twice or ends and waits. -/
theorem nodup_of_run {e : Exchange} {steps : List Step}
    (distinct : (e.pendingIds ++ (calls steps).map Prod.fst).Nodup) :
    ((ended (e.run steps).2).map Prod.fst ++ (e.run steps).1.pendingIds).Nodup := by
  obtain ⟨l, perm, sublist⟩ := subperm_of_run e steps
  exact perm.nodup_iff.1 (sublist.nodup distinct)

/-- What is aborted neither ends nor waits. -/
theorem notMem_accounted_abort (e : Exchange) (id : String) :
    id ∉ accounted (e.step (.abort id)).2.done (e.step (.abort id)).1 := by
  have gone : id ∉ (e.act (.abort id)).1.pendingIds ∧ (e.act (.abort id)).2.done = [] := by
    simp only [act]
    split
    · simp [pendingIds]
    · next h =>
      have absent : id ∉ e.pendingIds := by
        simp only [List.any_eq_true, decide_eq_true_eq, not_exists, not_and] at h
        simpa [pendingIds] using h
      split <;> exact ⟨absent, rfl⟩
  have kept := (perm_settle (e.act (.abort id)).1).mem_iff (a := id)
  simp only [step, gone.2, List.nil_append]
  exact fun h => gone.1 (kept.1 h)

/-- A delivery that waits and is aborted ends neither then nor later. -/
theorem notMem_ended_of_abort {e : Exchange} {before after : List Step} {id : String}
    (distinct : (e.pendingIds ++ (calls (before ++ .abort id :: after)).map Prod.fst).Nodup)
    (waiting : id ∈ (e.run before).1.pendingIds) (d : Delivery) :
    (id, d) ∉ ended (e.run (before ++ .abort id :: after)).2 := by
  have split : calls (before ++ .abort id :: after) = calls before ++ calls after := by
    simp [calls]
  rw [split, List.map_append, ← List.append_assoc] at distinct
  have first := nodup_of_run (e := e) distinct.of_append_left
  -- it was called for before, so it is not called for again
  have called : id ∈ e.pendingIds ++ (calls before).map Prod.fst :=
    (subperm_of_run e before).subset (List.mem_append_right _ waiting)
  have anew : id ∉ (calls after).map Prod.fst := (List.disjoint_of_nodup_append distinct) called
  have aborted := notMem_accounted_abort (e.run before).1 id
  have later := (subperm_of_run ((e.run before).1.step (.abort id)).1 after).subset (a := id)
  intro h
  rw [run_append] at h
  simp only [run, ended, List.flatMap_append, List.flatMap_cons, List.mem_append] at h
  rcases h with h | h | h
  · exact List.disjoint_of_nodup_append first (List.mem_map_of_mem h) waiting
  · exact aborted (List.mem_append_left _ (List.mem_map_of_mem h))
  · rcases List.mem_append.1 (later (List.mem_append_left _ (List.mem_map_of_mem h))) with h | h
    · exact aborted (List.mem_append_right _ h)
    · exact anew h

end FeedCapture.Exchange
