import FeedCapture.Cancellation
import Mathlib.Logic.Relation

/-!
# The lineage of tokens

A token is cancelled exactly when it or one of its ancestors was itself cancelled, and whatever is
done with tokens takes no cancellation back.

## Main definitions

* `TokenTree.Below` — one token is another one or a descendant of it

The main statements are `TokenTree.isCancelled_iff` and `TokenTree.Extends.isCancelled`.
-/

namespace FeedCapture

namespace TokenTree

variable {t t' : TokenTree} {token ancestor : Token}

/-- One token is another one, or was made below it or below a descendant of it. -/
def Below (t : TokenTree) : Token → Token → Prop := Relation.ReflTransGen t.ChildOf

theorem isCancelled_of_below (below : t.Below token ancestor) (fired : t.Fired ancestor) :
    t.isCancelled token = true := by
  induction below using Relation.ReflTransGen.head_induction_on with
  | refl => exact isCancelled_of_fired fired
  | head child _ ih =>
    obtain ⟨older, own, node⟩ := child
    rw [isCancelled, node]
    simp [older, ih]

/-- The token or one of its ancestors was itself cancelled. -/
theorem isCancelled_iff (t : TokenTree) (token : Token) :
    t.isCancelled token = true ↔ ∃ ancestor, t.Below token ancestor ∧ t.Fired ancestor := by
  refine ⟨?_, fun ⟨ancestor, below, fired⟩ => isCancelled_of_below below fired⟩
  induction token using Nat.strongRecOn with
  | ind token ih =>
    intro cancelled
    rw [isCancelled] at cancelled
    cases node : t.nodes[token]? with
    | none => simp [node] at cancelled
    | some own =>
      obtain ⟨parent, fired⟩ := own
      cases fired with
      | true => exact ⟨token, .refl, parent, node⟩
      | false =>
        cases parent with
        | none => simp [node] at cancelled
        | some parent =>
          simp only [node, Bool.false_or] at cancelled
          by_cases older : parent < token
          · rw [if_pos older] at cancelled
            obtain ⟨ancestor, below, fired⟩ := ih parent older cancelled
            exact ⟨ancestor, .head ⟨older, false, node⟩ below, fired⟩
          · rw [if_neg older] at cancelled
            cases cancelled

/-- A token without a parent is cancelled only by itself. -/
theorem isCancelled_of_root {fired : Bool} (root : t.nodes[token]? = some ⟨none, fired⟩) :
    t.isCancelled token = fired := by
  rw [isCancelled, root]
  exact Bool.or_false fired

namespace Extends

theorem below (h : Extends t t') (below : t.Below token ancestor) : t'.Below token ancestor :=
  Relation.ReflTransGen.mono (fun _ _ child => h.childOf child) _ _ below

/-- What is cancelled stays cancelled. -/
theorem isCancelled (h : Extends t t') (cancelled : t.isCancelled token = true) :
    t'.isCancelled token = true := by
  obtain ⟨ancestor, below, fired⟩ := (isCancelled_iff t token).1 cancelled
  exact (isCancelled_iff t' token).2 ⟨ancestor, h.below below, h.fired fired⟩

end Extends

end TokenTree

namespace NamedTokens

theorem extends_resolve (t : NamedTokens) (name : String) :
    t.tree.Extends (t.resolve name).1.tree := by
  unfold resolve
  split
  · exact .refl _
  · exact .add t.tree none

theorem extends_child (t : NamedTokens) (name parent : String) :
    t.tree.Extends (t.child name parent).tree :=
  (t.extends_resolve parent).trans (.add _ (some _))

theorem extends_cancel (t : NamedTokens) (name : String) : t.tree.Extends (t.cancel name).tree :=
  (t.extends_resolve name).trans (.cancel _ _)

end NamedTokens

end FeedCapture
