import FeedCapture.Proofs.Fleet.Halting
import FeedCapture.Proofs.Worker.Linking

/-!
# Links in the runs of a fleet

In every run of a fleet the changes of the link of each worker form a chain from the start.  The
link is stopped at most once and for good, and only when the fleet was told to stop or when a
delivery found nobody who receives.  There is never more than one dial or connection of a worker.

## Main definitions

* `Fleet.Told`, `Fleet.Unheard` — why a worker stopped at an instant

The main statement is `links_of_run`.
-/

namespace FeedCapture.Fleet

open Worker

variable {policy : Policy} {network : Network} {bus : Bus Nat} {counting spare : Bool}
  {addrs : List String} {start f : Fleet} {acts : List Act} {slot : Nat}

/-- The worker in a slot took a step at an instant at which the fleet had been told to stop. -/
def Told (start : Fleet) (acts : List Act) (f : Fleet) (slot : Nat) (t : Instant) : Prop :=
  ∃ m : Moment start acts f slot, m.fleet.hub.now = t ∧ .stop ∈ m.before

/-- The worker in a slot took a step at an instant at which nobody received messages, and what it
did before says that it could not deliver one. -/
def Unheard (start : Fleet) (acts : List Act) (f : Fleet) (slot : Nat) (t : Instant)
    (earlier : List (Instant × Event)) : Prop :=
  (∃ m : Moment start acts f slot, m.fleet.hub.now = t ∧ m.fleet.hub.bus.receiving = false) ∧
    ∃ message, (t, .undelivered message .closed) ∈ earlier

/-- At any time, what the workers do agrees with their logs. -/
theorem linked_of_run (new : start = (create policy network bus counting spare).spawn addrs)
    (ran : start.run? acts = some f) (slot : Nat) :
    Holds (fun _ _ => Linked) slot f := by
  subst new
  exact (holds_spawn linked_new slot).run (fun linked step => linked.transition step)
    (fun linked _ => linked) ran

/-- A link is stopped only when the fleet was told to stop, or right after the worker left its
connection because a delivery found nobody who receives. -/
theorem halted_of_split (new : start = (create policy network bus counting spare).spawn addrs)
    (ran : start.run? acts = some f) {later earlier : List (Instant × Event)} {t : Instant}
    {source : LinkState} (split : f.log slot = later ++ (t, .link source .stopped) :: earlier) :
    Told start acts f slot t ∨
      Unheard start acts f slot t earlier ∧ earlier.head? = some (t, .exited .busClosed) := by
  obtain ⟨m, pre, post, made⟩ := exists_moment ran (by rw [new]; rfl) split
  rcases halts_of_events m.taken made.events with stopping | ⟨nobody, ⟨message, mem⟩, first, last⟩
  · exact .inl ⟨m, made.now, stop_mem_of_stopping new m.reached stopping⟩
  · refine .inr ⟨⟨⟨m, made.now, nobody⟩, message, ?_⟩, ?_⟩
    · rw [made.earlier]
      exact List.mem_append_left _ (mem_logged.2 ⟨rfl, mem⟩)
    · simp [made.earlier, last]

/-- **Links.**  In every run of a fleet: the changes of a worker's link form a chain that starts
without a connection and, unless the worker broke down, leads to where the link is now; and at any
point of its log the worker has at most one dial under way or one connection.  Once its link is
stopped it does not change any more, and that happens only when the fleet was told to stop or when a
delivery found nobody who receives. -/
theorem links_of_run (new : start = (create policy network bus counting spare).spawn addrs)
    (ran : start.run? acts = some f) (slot : Nat) :
    (∀ w, f.workers[slot]? = some w →
      (∃ last, LinkState.Chain .disconnected (linksOf (f.log slot)) last ∧
        (w.phase.crash? = none → last = w.phase.link)) ∧
      ∀ earlier, earlier <:+ f.log slot →
        0 ≤ (ties earlier).1 ∧ 0 ≤ (ties earlier).2 ∧ (ties earlier).1 + (ties earlier).2 ≤ 1) ∧
    ∀ later earlier t source, f.log slot = later ++ (t, .link source .stopped) :: earlier →
      linksOf later = [] ∧
        (Told start acts f slot t ∨ Unheard start acts f slot t earlier) := by
  constructor
  · intro w here
    have linked := linked_of_run new ran slot w here
    exact ⟨linked.links, linked.apart⟩
  · intro later earlier t source split
    refine ⟨?_, (halted_of_split new ran split).imp_right And.left⟩
    obtain ⟨m, pre, post, made⟩ := exists_moment ran (by rw [new]; rfl) split
    obtain ⟨w, here⟩ := m.exists_worker
    obtain ⟨last, chain, -⟩ := (linked_of_run new ran slot w here).links
    rw [split, linksOf_split] at chain
    exact chain.eq_nil_of_stopped

/-- A worker that has stopped was told to, or found nobody who receives. -/
theorem exists_halt_of_stopped (new : start = (create policy network bus counting spare).spawn addrs)
    (ran : start.run? acts = some f) {w : Worker} (here : f.workers[slot]? = some w)
    (stopped : w.phase = .stopped) :
    ∃ later t source earlier, f.log slot = later ++ (t, .link source .stopped) :: earlier ∧
      (Told start acts f slot t ∨ Unheard start acts f slot t earlier) := by
  obtain ⟨last, chain, whole⟩ := (linked_of_run new ran slot w here).links
  obtain rfl : last = .stopped := by
    rw [whole (by rw [stopped]; rfl), stopped]
    rfl
  obtain ⟨source, mem⟩ := chain.exists_mem_of_ne (by simp)
  obtain ⟨later, t, earlier, split⟩ := exists_split_of_mem_linksOf mem
  exact ⟨later, t, source, earlier, split, (halted_of_split new ran split).imp_right And.left⟩

/-- One worker with a connection over which nothing comes. -/
def quietLine : Fleet :=
  (create {} ⟨[("feed:1", [.settles 0 (.connected [] none)])]⟩ { capacity := 1 } true
    false).spawn ["feed:1"]

/-- The worker connects, leaves the connection when it is told to stop, and stops. -/
def quietLineActs : List Act := [.step 0, .step 0, .stop, .step 0, .step 0]

/-- The link goes through all four states, and is stopped because the fleet was told to stop. -/
theorem links_of_run_quietLine :
    ∃ f, quietLine.run? quietLineActs = some f ∧
      (∃ last, LinkState.Chain .disconnected [(.disconnected, .dialing), (.dialing, .connected),
        (.connected, .disconnected), (.disconnected, .stopped)] last) ∧
      (Told quietLine quietLineActs f 0 0 ∨
        Unheard quietLine quietLineActs f 0 0 ((f.log 0).drop 2)) := by
  have told : (quietLine.run? quietLineActs).map
      (fun f => (f.workers[0]?.map (·.phase), linksOf (f.log 0), (f.log 0).take 2)) =
      some (some .stopped, [(.disconnected, .dialing), (.dialing, .connected),
        (.connected, .disconnected), (.disconnected, .stopped)],
        [(0, .stopped), (0, .link .disconnected .stopped)]) := by decide +kernel
  obtain ⟨f, ran, state⟩ := Option.map_eq_some_iff.1 told
  obtain ⟨stopped, rest⟩ := Prod.mk.inj state
  obtain ⟨links, first⟩ := Prod.mk.inj rest
  obtain ⟨w, here, -⟩ := Option.map_eq_some_iff.1 stopped
  obtain ⟨each, halts⟩ := links_of_run rfl ran 0
  obtain ⟨⟨last, chain, -⟩, -⟩ := each w here
  have split := (List.take_append_drop 2 (f.log 0)).symm
  rw [first] at split
  exact ⟨f, ran, ⟨last, links ▸ chain⟩, (halts [_] _ 0 .disconnected split).2⟩

end FeedCapture.Fleet
