import FeedCapture.Registry

/-!
# Closing what a registry has entries for

Closing all connections cancels the token of every entry and leaves all other tokens alone.

The main statements are `Registry.fired_closeAll` and `Registry.node_closeAll`.
-/

namespace FeedCapture

theorem TokenTree.node_cancel_of_ne {t : TokenTree} {token other : Token} (hne : token ≠ other) :
    (t.cancel token).nodes[other]? = t.nodes[other]? := by
  simp [cancel, Array.getElem?_modify, hne]

namespace Registry

variable {r : Registry} {tokens : TokenTree} {token : Token}

/-- Closing all connections takes no cancellation back. -/
theorem extends_closeAll (r : Registry) (tokens : TokenTree) :
    tokens.Extends (r.closeAll tokens) := by
  unfold Registry.closeAll
  induction r.entries generalizing tokens with
  | nil => exact .refl _
  | cons e es ih => exact (TokenTree.Extends.cancel tokens e.2).trans (ih _)

/-- Closing all connections leaves the tokens without an entry alone. -/
theorem node_closeAll (other : ∀ e ∈ r.entries, e.2 ≠ token) :
    (r.closeAll tokens).nodes[token]? = tokens.nodes[token]? := by
  obtain ⟨entries⟩ := r
  induction entries generalizing tokens with
  | nil => rfl
  | cons e es ih =>
    obtain ⟨first, rest⟩ := List.forall_mem_cons.1 other
    exact (ih rest).trans (TokenTree.node_cancel_of_ne first)

/-- Closing all connections cancels the token of every entry. -/
theorem fired_closeAll {e : SourceKey × Token} (mem : e ∈ r.entries)
    (known : e.2 < tokens.nodes.size) : (r.closeAll tokens).Fired e.2 := by
  obtain ⟨entries⟩ := r
  induction entries generalizing tokens with
  | nil => cases mem
  | cons e' es ih =>
    rcases List.mem_cons.1 mem with rfl | mem
    · exact (extends_closeAll ⟨es⟩ _).fired (TokenTree.fired_cancel known)
    · have grown := TokenTree.Extends.cancel tokens e'.2
      exact ih (Nat.lt_of_lt_of_le known grown.size_le) mem

end Registry

end FeedCapture
