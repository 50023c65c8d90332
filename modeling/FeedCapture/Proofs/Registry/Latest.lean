import FeedCapture.Proofs.Cancellation.Lineage
import FeedCapture.Proofs.Registry.Closing
import FeedCapture.Registry.Run

/-!
# The latest registration of a key

A key has an entry, with the token of the latest registration that was made for it, until any
registration of the key is dropped: this one, or one that was made before it and is still held.  So
an entry stands as long as the latest registration where nobody else holds one of its key, and
closing all connections cancels its token.

## Main definitions

* `Registrations.dropped` — the keys of the registrations that acts drop

The main statement is `entry_of_latest`.
-/

namespace FeedCapture

/-! ## Named tokens -/

namespace NamedTokens

variable {t : NamedTokens}

/-- Every name stands for a token that was made. -/
def Known (t : NamedTokens) : Prop := ∀ p ∈ t.names, p.2 < t.tree.nodes.size

theorem Known.withTree (known : t.Known) {tree : TokenTree} (grown : t.tree.Extends tree) :
    Known { t with tree } :=
  fun p mem => Nat.lt_of_lt_of_le (known p mem) grown.size_le

theorem Known.bind (known : t.Known) (name : String) {token : Token}
    (made : token < t.tree.nodes.size) : (t.bind name token).Known := by
  intro p mem
  rcases List.mem_cons.1 mem with rfl | mem
  · exact made
  · exact known p (List.mem_filter.1 mem).1

/-- The token of a name was made, if need be just now. -/
theorem Known.resolve (known : t.Known) (name : String) :
    (t.resolve name).1.Known ∧ (t.resolve name).2 < (t.resolve name).1.tree.nodes.size := by
  have made : t.tree.fresh.2 < t.tree.fresh.1.nodes.size := by
    simp [TokenTree.fresh, TokenTree.add]
  unfold NamedTokens.resolve
  split
  · next token found =>
    obtain ⟨before, after, names, -⟩ := List.lookup_eq_some_iff.1 found
    exact ⟨known, known (name, token) (by simp [names])⟩
  · exact ⟨(known.withTree (.add t.tree none)).bind name made, made⟩

theorem Known.child (known : t.Known) (name parent : String) : (t.child name parent).Known := by
  have made : ∀ (tree : TokenTree) (token : Token), (tree.child token).2 <
      (tree.child token).1.nodes.size := by simp [TokenTree.child, TokenTree.add]
  exact ((known.resolve parent).1.withTree (.add _ (some _))).bind name (made _ _)

theorem Known.cancel (known : t.Known) (name : String) : (t.cancel name).Known :=
  (known.resolve name).1.withTree (.cancel _ _)

end NamedTokens

namespace Registry

/-- Registering a connection takes no cancellation back. -/
theorem extends_register (r : Registry) (tokens : TokenTree) (key : SourceKey) (close : Token) :
    tokens.Extends (r.register tokens key close).2.1 := by
  unfold register
  split
  · exact .cancel _ _
  · exact .refl _

theorem fst_register (r : Registry) (tokens : TokenTree) (key : SourceKey) (close : Token) :
    (r.register tokens key close).1 = r.insert key close := by
  unfold register
  split <;> rfl

end Registry

namespace Registrations

variable {s : Registrations} {holder : String} {key : SourceKey} {a : Act} {acts : List Act}

/-! ## Tokens -/

theorem tokens_drop (s : Registrations) (holder : String) :
    (s.drop holder).1.tokens = s.tokens := by
  unfold drop
  split <;> rfl

theorem tokens_register (s : Registrations) (holder : String) (key : SourceKey) (token : String) :
    (s.register holder key token).1.tokens = { (s.tokens.resolve token).1 with
      tree := (s.registry.register (s.tokens.resolve token).1.tree key
        (s.tokens.resolve token).2).2.1 } :=
  tokens_drop _ holder

/-- Nothing that is done takes a cancellation back. -/
theorem extends_act (s : Registrations) (a : Act) :
    s.tokens.tree.Extends (s.act a).tokens.tree := by
  cases a with
  | register holder key token =>
    rw [act, tokens_register]
    exact (s.tokens.extends_resolve token).trans (s.registry.extends_register _ _ _)
  | drop holder | panic holder =>
    rw [act, tokens_drop]
    exact .refl _
  | child name parent => exact s.tokens.extends_child name parent
  | cancel name => exact s.tokens.extends_cancel name
  | closeAll => exact s.registry.extends_closeAll _

theorem extends_run (s : Registrations) (acts : List Act) :
    s.tokens.tree.Extends (s.run acts).tokens.tree := by
  induction acts generalizing s with
  | nil => exact .refl _
  | cons a acts ih => exact (s.extends_act a).trans (ih _)

theorem known_act (known : s.tokens.Known) (a : Act) : (s.act a).tokens.Known := by
  cases a with
  | register holder key token =>
    rw [act, tokens_register]
    exact (known.resolve token).1.withTree (s.registry.extends_register _ _ _)
  | drop holder | panic holder =>
    rw [act, tokens_drop]
    exact known
  | child name parent => exact known.child name parent
  | cancel name => exact known.cancel name
  | closeAll => exact known.withTree (s.registry.extends_closeAll _)

theorem known_run (known : s.tokens.Known) (acts : List Act) : (s.run acts).tokens.Known := by
  induction acts generalizing s with
  | nil => exact known
  | cons a acts ih => exact ih (known_act known a)

/-! ## Dropping -/

/-- The holder whose registration an act drops, if it has one. -/
def Act.dropper? : Act → Option String
  | .register holder _ _ => some holder
  | .drop holder => some holder
  | .panic holder => some holder
  | _ => none

/-- The key of the registration that an act drops. -/
def dropped? (s : Registrations) (a : Act) : Option SourceKey :=
  a.dropper?.bind fun holder => s.held.lookup holder

/-- The keys of the registrations that acts drop, in order. -/
def dropped (s : Registrations) : List Act → List SourceKey
  | [] => []
  | a :: rest => (s.dropped? a).toList ++ (s.act a).dropped rest

theorem mem_dropped_cons : key ∈ s.dropped (a :: acts) ↔
    s.dropped? a = some key ∨ key ∈ (s.act a).dropped acts := by
  rw [dropped, List.mem_append, Option.mem_toList]

/-- Dropping a registration removes the entry of its key and no other. -/
theorem get?_drop (s : Registrations) (holder : String) (key : SourceKey) :
    (s.drop holder).1.registry.get? key =
      if s.held.lookup holder = some key then none else s.registry.get? key := by
  unfold drop
  cases found : s.held.lookup holder with
  | none => simp
  | some own =>
    by_cases same : own = key
    · subst same
      simp
    · have other : key ≠ own := Ne.symm same
      simpa [same] using (Registry.AgreesBut.unregister own s.registry).get? key other

theorem get?_register (s : Registrations) (holder : String) (own key : SourceKey)
    (token : String) :
    (s.register holder own token).1.registry.get? key =
      if s.held.lookup holder = some key then none
      else (s.registry.insert own (s.tokens.resolve token).2).get? key := by
  rw [← s.registry.fst_register (s.tokens.resolve token).1.tree]
  exact get?_drop _ holder key

/-- An act that does not register a connection under a key leaves the entry of the key alone, unless
it drops a registration of the key. -/
theorem get?_act (s : Registrations) (other : ∀ holder token, a ≠ .register holder key token) :
    (s.act a).registry.get? key =
      if s.dropped? a = some key then none else s.registry.get? key := by
  cases a with
  | register holder own token =>
    have hne : key ≠ own := by
      rintro rfl
      exact other holder token rfl
    rw [act, get?_register, Registry.get?_insert_of_ne _ _ hne]
    rfl
  | drop holder | panic holder => exact s.get?_drop holder key
  | _ => rfl

/-- As long as no connection is registered under a key, the entry of the key is left alone until a
registration of the key is dropped. -/
theorem get?_run (s : Registrations) (latest : ∀ holder token, .register holder key token ∉ acts) :
    (s.run acts).registry.get? key =
      if key ∈ s.dropped acts then none else s.registry.get? key := by
  induction acts generalizing s with
  | nil => simp [run, dropped]
  | cons a acts ih =>
    have other : ∀ holder token, a ≠ .register holder key token := fun holder token same =>
      latest holder token (by simp [same])
    have later : (s.run (a :: acts)).registry.get? key = _ :=
      ih (s.act a) fun holder token mem => latest holder token (List.mem_cons_of_mem _ mem)
    rw [later, s.get?_act other]
    by_cases now : s.dropped? a = some key
    · simp [mem_dropped_cons, now]
    · simp [mem_dropped_cons, now]

/-! ## Holding -/

theorem held_drop (s : Registrations) (holder : String) :
    (s.drop holder).1.held ⊆ s.held := by
  unfold drop
  split
  · exact List.Subset.refl _
  · exact fun h mem => (List.mem_filter.1 mem).1

theorem held_register (s : Registrations) (holder : String) (own : SourceKey) (token : String) :
    (s.register holder own token).1.held ⊆ (holder, own) :: s.held :=
  List.cons_subset_cons _ (held_drop _ holder)

/-- Only who registers a connection under a key gets a registration of the key. -/
theorem mem_held_act {h : String × SourceKey} (mem : h ∈ (s.act a).held)
    (other : ∀ token, a ≠ .register h.1 h.2 token) : h ∈ s.held := by
  cases a with
  | register holder own token =>
    rcases List.mem_cons.1 (s.held_register holder own token mem) with rfl | mem
    · exact absurd rfl (other token)
    · exact mem
  | drop holder | panic holder => exact s.held_drop holder mem
  | _ => exact mem

/-- Where one holder alone has a registration of a key, and nobody registers a connection under the
key, no registration of the key is dropped as long as the holder keeps its own. -/
theorem notMem_dropped (latest : ∀ h token, .register h key token ∉ acts)
    (alone : ∀ h ∈ s.held, h.2 = key → h.1 = holder)
    (kept : ∀ a ∈ acts, a.dropper? ≠ some holder) : key ∉ s.dropped acts := by
  induction acts generalizing s with
  | nil => simp [dropped]
  | cons a acts ih =>
    rw [mem_dropped_cons, dropped?, Option.bind_eq_some_iff, not_or]
    refine ⟨?_, ih (fun h token mem => latest h token (List.mem_cons_of_mem _ mem))
      (fun h mem same => alone h (mem_held_act mem ?_) same)
      (fun a mem => kept a (List.mem_cons_of_mem _ mem))⟩
    · rintro ⟨h, drops, found⟩
      obtain ⟨before, after, held, -⟩ := List.lookup_eq_some_iff.1 found
      have own : h = holder := alone (h, key) (by simp [held]) rfl
      exact kept a (List.mem_cons_self ..) (own ▸ drops)
    · rintro token rfl
      exact latest h.1 token (by simp [same])

/-! ## The latest registration -/

/-- **The entry of a key.**  After any acts, and a registration that is the latest one that was made
for its key, the key has an entry exactly if no registration of the key was dropped since then: not
this one, and none that was made before it.  The entry holds the token of this registration, and
closing all connections cancels the token.  Where nobody else holds a registration of the key when
this one is made, the key has the entry as long as this one is held. -/
theorem entry_of_latest (before : List Act) (holder name : String) {after : List Act}
    (latest : ∀ h token, .register h key token ∉ after) :
    let made := run {} before
    let s := made.run (.register holder key name :: after)
    let close := (made.tokens.resolve name).2
    (s.registry.get? key =
      if key ∈ made.dropped (.register holder key name :: after) then none else some close) ∧
    (s.registry.get? key = some close → s.closeAll.1.tokens.tree.isCancelled close = true) ∧
    ((∀ h ∈ made.held, h.2 ≠ key) → (∀ a ∈ after, a.dropper? ≠ some holder) →
      s.registry.get? key = some close) := by
  intro made s close
  have entry : s.registry.get? key =
      if key ∈ made.dropped (.register holder key name :: after) then none else some close := by
    have later : s.registry.get? key = _ :=
      (made.act (.register holder key name)).get?_run latest
    have own : made.dropped? (.register holder key name) = made.held.lookup holder := rfl
    rw [later, act, get?_register, Registry.get?_insert_self, ← own]
    by_cases now : made.dropped? (.register holder key name) = some key
    · simp [mem_dropped_cons, now]
    · simp only [mem_dropped_cons, now, if_false, false_or]
      rfl
  refine ⟨entry, fun there => ?_, fun alone kept => ?_⟩
  · obtain ⟨first, last, entries, -⟩ := List.lookup_eq_some_iff.1 there
    have known : made.tokens.Known := known_run (fun p mem => by cases mem) before
    have grown : (made.tokens.resolve name).1.tree.Extends s.tokens.tree := by
      refine TokenTree.Extends.trans ?_ (extends_run (made.act (.register holder key name)) after)
      rw [act, tokens_register]
      exact made.registry.extends_register _ _ _
    have here : close < s.tokens.tree.nodes.size :=
      Nat.lt_of_lt_of_le (known.resolve name).2 grown.size_le
    have mem : (key, close) ∈ s.registry.entries := by simp [entries]
    exact TokenTree.isCancelled_of_fired (Registry.fired_closeAll mem here)
  · have free : made.held.lookup holder ≠ some key := by
      intro found
      obtain ⟨first, last, held, -⟩ := List.lookup_eq_some_iff.1 found
      exact alone (holder, key) (by simp [held]) rfl
    have own : ∀ h ∈ (made.act (.register holder key name)).held, h.2 = key → h.1 = holder := by
      intro h mem same
      rcases List.mem_cons.1 (made.held_register holder key name mem) with rfl | mem
      · rfl
      · exact absurd same (alone h mem)
    have none : key ∉ made.dropped (.register holder key name :: after) := by
      rw [mem_dropped_cons, not_or]
      exact ⟨free, notMem_dropped latest own kept⟩
    rw [entry, if_neg none]

/-- The first source. -/
def firstKey : SourceKey := ⟨0, "feed:1"⟩

/-- What happens after the first source has connected again: a second source with the same address
comes, and its worker panics. -/
def neighbour : List Act :=
  [.register "neighbour" ⟨1, "feed:1"⟩ "third", .panic "neighbour", .cancel "third"]

/-- A worker that drops its registration before it connects again has an entry as long as it is
connected, whatever becomes of the others. -/
theorem entry_of_latest_reconnected :
    (∀ h token, .register h firstKey token ∉ neighbour) ∧
      let s := run {} ([.register "first" firstKey "one", .drop "first"] ++
        .register "second" firstKey "two" :: neighbour)
      s.registry.get? firstKey = some 1 ∧ s.closeAll.1.tokens.tree.isCancelled 1 = true := by
  have latest : ∀ h token, .register h firstKey token ∉ neighbour := by
    simp [neighbour, firstKey]
  obtain ⟨-, closes, stands⟩ := entry_of_latest [.register "first" firstKey "one", .drop "first"]
    "second" "two" latest
  have there := stands (by decide) (by decide)
  exact ⟨latest, there, closes there⟩

/-- Dropping an older registration of a key removes the entry of a newer one that is still held, and
closing all connections does not reach it any more. -/
theorem missing_of_older_dropped :
    let s := run {} [.register "older" firstKey "one", .register "newer" firstKey "two",
      .drop "older"]
    s.held.lookup "newer" = some firstKey ∧ s.tokens.names.lookup "two" = some 1 ∧
      s.registry.get? firstKey = none ∧ s.closeAll.1.tokens.tree.isCancelled 1 = false :=
  ⟨by decide, by decide, by decide, TokenTree.isCancelled_of_root rfl⟩

end Registrations

end FeedCapture
