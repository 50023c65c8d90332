import FeedCapture.Proofs.Cancellation.Lineage
import FeedCapture.Proofs.Fleet.Wiring
import FeedCapture.Proofs.Worker.Sharing

/-!
# Who tells a fleet to stop

The stop token has no parent, and nobody cancels it but who tells the fleet to stop.  In particular
closing all connections cancels the tokens of the connections, which are below it, and leaves it
alone.

## Main definitions

* `Fleet.Rooted` — the stop token is cancelled only by itself
* `Fleet.Running` — a fleet that was not told to stop

The main statements are `Running.run` and `stop_mem_of_stopping`.
-/

namespace FeedCapture

namespace Fleet

open Worker

/-- The stop token is cancelled only by itself. -/
def Rooted (f : Fleet) : Prop :=
  f.hub.tokens.nodes[f.hub.stop]? = some ⟨none, f.hub.stopping⟩

variable {start f g : Fleet} {a : Act} {acts : List Act}

/-- Nobody has told a new fleet to stop. -/
theorem rooted_create (policy : Policy) (network : Network) (bus : Bus Nat)
    (counting spare : Bool) (addrs : List String) :
    ((create policy network bus counting spare).spawn addrs).Rooted ∧
      ((create policy network bus counting spare).spawn addrs).hub.stopping = false := by
  have going : ((create policy network bus counting spare).spawn addrs).hub.stopping = false :=
    TokenTree.isCancelled_of_clear TokenTree.clear_fresh _
  refine ⟨?_, going⟩
  rw [Rooted, going]
  rfl

/-- The closing tokens of connections are not the stop token. -/
theorem Wired.ne_stop_of_mem_entries (wired : f.Wired) {e : SourceKey × Token}
    (mem : e ∈ f.hub.registry.entries) : e.2 ≠ f.hub.stop := by
  obtain ⟨w, link, here, -, open_, close⟩ := wired.open_of_mem_entries mem
  have below := ((wired.each _ w here).close link open_).1
  rw [close] at below
  exact Nat.ne_of_gt below

/-- What is told of the stop token by its node. -/
theorem rooted_of_node {fired : Bool}
    (node : g.hub.tokens.nodes[g.hub.stop]? = some ⟨none, fired⟩) :
    g.Rooted ∧ g.hub.stopping = fired := by
  have stopping : g.hub.stopping = fired := TokenTree.isCancelled_of_root node
  exact ⟨by rw [Rooted, node, stopping], stopping⟩

/-- A step leaves the stop token as it is. -/
theorem Rooted.node_of_transition {h : Hub} {w : Worker} {s : Worker.Step} {node : TokenTree.Node}
    (known : h.tokens.nodes[h.stop]? = some node) (wired : w.Wired h) (step : Transition h w s) :
    s.hub.tokens.nodes[s.hub.stop]? = some node := by
  have old : h.stop < h.tokens.nodes.size := (Array.getElem?_eq_some_iff.1 known).1
  rw [(kept_of_transition step).stop]
  rcases shared_of_transition step wired with ⟨same, -⟩ | ⟨child, -⟩
  · rw [same, known]
  · rw [child, TokenTree.child, TokenTree.add, Array.getElem?_push, if_neg (Nat.ne_of_lt old),
      known]

/-- Only who tells the fleet to stop cancels the stop token. -/
theorem Rooted.act (rooted : f.Rooted) (wired : f.Wired) (ha : f.act? a = some g) :
    g.Rooted ∧ (a ≠ .stop → g.hub.stopping = f.hub.stopping) := by
  have same : g.hub.tokens.nodes[g.hub.stop]? = some ⟨none, f.hub.stopping⟩ →
      g.Rooted ∧ (a ≠ .stop → g.hub.stopping = f.hub.stopping) := fun node =>
    ⟨(rooted_of_node node).1, fun _ => (rooted_of_node node).2⟩
  cases change_of_act? ha with
  | step here step =>
    exact same (Rooted.node_of_transition rooted (wired.each _ _ here) (transition_of_step? step))
  | stop =>
    have node : f.hub.tokens.nodes[f.hub.stop]? = some ⟨none, f.hub.stopping⟩ := rooted
    have fired : f.stop.hub.tokens.nodes[f.stop.hub.stop]? = some ⟨none, true⟩ := by
      simp [stop, TokenTree.cancel, Array.getElem?_modify, node]
    exact ⟨(rooted_of_node fired).1, fun other => absurd rfl other⟩
  | closeAll =>
    exact same ((Registry.node_closeAll fun e mem => wired.ne_stop_of_mem_entries mem).trans rooted)
  | _ => exact same rooted

/-- No cancellation is taken back. -/
theorem extends_of_act? (wired : f.Wired) (ha : f.act? a = some g) :
    f.hub.tokens.Extends g.hub.tokens := by
  cases change_of_act? ha with
  | step here step =>
    exact (wired_of_transition (transition_of_step? step) (wired.each _ _ here)
      wired.stop).2.tokens
  | stop => exact .cancel _ _
  | closeAll => exact Registry.extends_closeAll _ _
  | _ => exact .refl _

/-! ## Runs -/

variable {policy : Policy} {network : Network} {bus : Bus Nat} {counting spare : Bool}
  {addrs : List String}

/-- A new fleet is wired all the time, and its stop token is cancelled only by itself. -/
theorem wired_of_run (new : start = (create policy network bus counting spare).spawn addrs)
    (ran : start.run? acts = some f) : f.Wired ∧ f.Rooted := by
  subst new
  have wired := (wired_create policy network bus counting spare).spawn rfl addrs
  refine preserved_of_run? (P := fun f => f.Wired ∧ f.Rooted) (fun ⟨wired, rooted⟩ ha => ?_)
    ⟨wired, (rooted_create policy network bus counting spare addrs).1⟩ ran
  exact ⟨wired.act ha, (rooted.act wired ha).1⟩

/-- A fleet that was not told to stop. -/
structure Running (f : Fleet) : Prop where
  wired : f.Wired
  rooted : f.Rooted
  going : f.hub.stopping = false

/-- It goes on until it is told to stop. -/
theorem Running.run (running : start.Running) (still : .stop ∉ acts)
    (ran : start.run? acts = some f) : f.Running := by
  induction acts generalizing start with
  | nil =>
    obtain rfl : start = f := Option.some.inj ran
    exact running
  | cons a acts ih =>
    obtain ⟨f', ha, ran⟩ := Option.bind_eq_some_iff.1 ran
    obtain ⟨other, still⟩ := not_or.1 (mt List.mem_cons.2 still)
    obtain ⟨rooted, same⟩ := running.rooted.act running.wired ha
    exact ih ⟨running.wired.act ha, rooted, (same (Ne.symm other)).trans running.going⟩ still ran

/-- A new fleet is stopping only when it was told to. -/
theorem stop_mem_of_stopping (new : start = (create policy network bus counting spare).spawn addrs)
    (ran : start.run? acts = some f) (stopping : f.hub.stopping = true) : .stop ∈ acts := by
  obtain ⟨wired, rooted⟩ := wired_of_run new (show start.run? [] = some start from rfl)
  have going : start.hub.stopping = false := by
    rw [new]
    exact (rooted_create policy network bus counting spare addrs).2
  refine Decidable.byContradiction fun still => ?_
  have running := Running.run ⟨wired, rooted, going⟩ still ran
  cases running.going.symm.trans stopping

end Fleet

end FeedCapture
