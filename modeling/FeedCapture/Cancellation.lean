/-!
# Cancellation

A token can be cancelled once and for all.  Tokens form a forest: a token is cancelled as soon as
it or one of its ancestors has been cancelled, also when it was made afterwards.

## Main definitions

* `TokenTree` — all tokens of a run, with `fresh`, `child`, `cancel` and `isCancelled`
* `TokenTree.ChildOf`, `TokenTree.Extends` — what is below what, and what later trees keep
* `TokenTree.Fired`, `TokenTree.Clear` — a token was cancelled itself, or none was
* `NamedTokens` — tokens under names, made when they are first mentioned
-/

namespace FeedCapture

/-- A cancellation token: its number in the order of making. -/
abbrev Token := Nat

/-- One token: its parent, and whether it was itself cancelled. -/
structure TokenTree.Node where
  parent : Option Token
  fired : Bool
deriving DecidableEq, Repr

/-- All tokens that were made, in order. -/
structure TokenTree where
  nodes : Array TokenTree.Node := #[]
deriving DecidableEq, Repr

namespace TokenTree

/-- Adds a token, and gives it. -/
def add (t : TokenTree) (parent : Option Token) : TokenTree × Token :=
  (⟨t.nodes.push ⟨parent, false⟩⟩, t.nodes.size)

/-- Makes a token without a parent. -/
def fresh (t : TokenTree) : TokenTree × Token := t.add none

/-- Makes a token below another one. -/
def child (t : TokenTree) (parent : Token) : TokenTree × Token := t.add (some parent)

/-- Cancels a token, and with it everything below it. -/
def cancel (t : TokenTree) (token : Token) : TokenTree :=
  ⟨t.nodes.modify token fun node => { node with fired := true }⟩

/-- The token or one of its ancestors was cancelled.  A parent is older than its children, so the
walk upwards ends. -/
def isCancelled (t : TokenTree) (token : Token) : Bool :=
  match t.nodes[token]? with
  | none => false
  | some node =>
    node.fired ||
      match node.parent with
      | none => false
      | some parent => if parent < token then t.isCancelled parent else false
termination_by token

/-! ### Parents and children -/

/-- A token was made below another one. -/
def ChildOf (t : TokenTree) (child parent : Token) : Prop :=
  parent < child ∧ ∃ fired, t.nodes[child]? = some ⟨some parent, fired⟩

/-- A token was itself cancelled. -/
def Fired (t : TokenTree) (token : Token) : Prop :=
  ∃ parent, t.nodes[token]? = some ⟨parent, true⟩

/-- Every token of one tree is in another one, with the same parent, and cancelled there if it is
cancelled here. -/
def Extends (t t' : TokenTree) : Prop :=
  ∀ (token : Token) (node : Node), t.nodes[token]? = some node →
    ∃ fired, t'.nodes[token]? = some ⟨node.parent, fired⟩ ∧ (node.fired = true → fired = true)

theorem isCancelled_of_fired {t : TokenTree} {token : Token} (h : t.Fired token) :
    t.isCancelled token = true := by
  obtain ⟨parent, h⟩ := h
  rw [isCancelled, h]
  rfl

/-- Cancelling a token cancels those below it. -/
theorem isCancelled_of_childOf {t : TokenTree} {child parent : Token} (h : t.ChildOf child parent)
    (fired : t.Fired parent) : t.isCancelled child = true := by
  obtain ⟨older, own, node⟩ := h
  rw [isCancelled, node]
  simp [older, isCancelled_of_fired fired]

/-- No token was cancelled. -/
def Clear (t : TokenTree) : Prop :=
  ∀ (token : Token) (node : Node), t.nodes[token]? = some node → node.fired = false

theorem Clear.add {t : TokenTree} (h : t.Clear) (parent : Option Token) :
    (t.add parent).1.Clear := by
  intro token node hn
  simp only [TokenTree.add, Array.getElem?_push] at hn
  split at hn
  · cases hn
    rfl
  · exact h token node hn

/-- In a new tree nothing is cancelled. -/
theorem clear_fresh : (TokenTree.fresh {}).1.Clear := by
  have none : TokenTree.Clear {} := fun token node hn => by simp at hn
  exact none.add _

theorem isCancelled_of_clear {t : TokenTree} (h : t.Clear) (token : Token) :
    t.isCancelled token = false := by
  induction token using Nat.strongRecOn with
  | ind token ih =>
    rw [isCancelled]
    cases hn : t.nodes[token]? with
    | none => rfl
    | some node =>
      have own := h token node hn
      cases hp : node.parent with
      | none => simp [own, hp]
      | some parent =>
        by_cases older : parent < token
        · simp [own, hp, older, ih parent older]
        · simp [own, hp, older]

namespace Extends

variable {t t' t'' : TokenTree}

theorem refl (t : TokenTree) : Extends t t := fun _ node h => ⟨node.fired, h, id⟩

theorem trans (h : Extends t t') (h' : Extends t' t'') : Extends t t'' := by
  intro token node hn
  obtain ⟨fired, hn, same⟩ := h token node hn
  obtain ⟨fired', hn, same'⟩ := h' token _ hn
  exact ⟨fired', hn, fun own => same' (same own)⟩

/-- Making a token changes no other one. -/
theorem add (t : TokenTree) (parent : Option Token) : Extends t (t.add parent).1 := by
  intro token node h
  have older : token < t.nodes.size := (Array.getElem?_eq_some_iff.1 h).1
  refine ⟨node.fired, ?_, id⟩
  simp only [TokenTree.add, Array.getElem?_push, if_neg (Nat.ne_of_lt older)]
  exact h

/-- Cancelling a token takes no other cancellation back. -/
theorem cancel (t : TokenTree) (token : Token) : Extends t (t.cancel token) := by
  intro other node h
  simp only [TokenTree.cancel, Array.getElem?_modify, h]
  split
  · exact ⟨true, rfl, fun _ => rfl⟩
  · exact ⟨node.fired, rfl, id⟩

theorem childOf (h : Extends t t') {child parent : Token} (below : t.ChildOf child parent) :
    t'.ChildOf child parent := by
  obtain ⟨older, own, node⟩ := below
  obtain ⟨fired, node, -⟩ := h child _ node
  exact ⟨older, fired, node⟩

theorem fired (h : Extends t t') {token : Token} (fired : t.Fired token) : t'.Fired token := by
  obtain ⟨parent, node⟩ := fired
  obtain ⟨own, node, same⟩ := h token _ node
  obtain rfl := same rfl
  exact ⟨parent, node⟩

theorem size_le (h : Extends t t') : t.nodes.size ≤ t'.nodes.size := by
  rcases Nat.eq_zero_or_pos t.nodes.size with none | some
  · omega
  · have last : t.nodes.size - 1 < t.nodes.size := by omega
    obtain ⟨fired, node, -⟩ := h _ _ (Array.getElem?_eq_getElem last)
    have := (Array.getElem?_eq_some_iff.1 node).1
    omega

end Extends

/-- A new token is below the one that it was made from. -/
theorem childOf_child {t : TokenTree} {parent : Token} (h : parent < t.nodes.size) :
    (t.child parent).1.ChildOf (t.child parent).2 parent :=
  ⟨h, false, by simp [child, add]⟩

theorem fired_cancel {t : TokenTree} {token : Token} (h : token < t.nodes.size) :
    (t.cancel token).Fired token := by
  refine ⟨t.nodes[token].parent, ?_⟩
  simp only [cancel, Array.getElem?_modify, if_true, Array.getElem?_eq_getElem h, Option.map_some]

end TokenTree

/-! ## Names -/

/-- Tokens under names. -/
structure NamedTokens where
  tree : TokenTree := {}
  names : List (String × Token) := []
deriving DecidableEq, Repr

namespace NamedTokens

/-- Puts a token under a name; the name's earlier token, if any, can no longer be reached by it. -/
def bind (t : NamedTokens) (name : String) (token : Token) : NamedTokens :=
  { t with names := (name, token) :: t.names.filter (fun p => p.1 ≠ name) }

/-- The token under a name, made now if there is none. -/
def resolve (t : NamedTokens) (name : String) : NamedTokens × Token :=
  match t.names.lookup name with
  | some token => (t, token)
  | none =>
    let (tree, token) := t.tree.fresh
    ({ t with tree := tree }.bind name token, token)

/-- Names a new token below the one named `parent`. -/
def child (t : NamedTokens) (name parent : String) : NamedTokens :=
  let (t, parentToken) := t.resolve parent
  let (tree, token) := t.tree.child parentToken
  { t with tree := tree }.bind name token

/-- Cancels the token under a name. -/
def cancel (t : NamedTokens) (name : String) : NamedTokens :=
  let (t, token) := t.resolve name
  { t with tree := t.tree.cancel token }

/-- The names whose tokens are cancelled, in alphabetical order. -/
def cancelledNames (t : NamedTokens) : List String :=
  ((t.names.filter fun p => t.tree.isCancelled p.2).map Prod.fst).mergeSort (fun a b => a ≤ b)

end NamedTokens

end FeedCapture
