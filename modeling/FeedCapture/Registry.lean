import FeedCapture.Cancellation
import FeedCapture.Entries
import FeedCapture.Log

/-!
# The connection registry

Every live connection has an entry under the key of its worker: the worker's slot and the address.
The entry holds the token that closes the connection.  Whoever registers a connection gets a
registration, and dropping the registration removes the entry of its key, whichever connection that
entry belongs to by then.

## Main definitions

* `SourceKey`, `Registry`, with `register`, `unregister`, `closeAll` and `addresses`
* `Registrations` — a registry together with the registrations that its users hold
-/

namespace FeedCapture

/-- A worker's slot and the address that it captures; equal addresses in two slots are two keys. -/
structure SourceKey where
  slot : Nat
  addr : String
deriving DecidableEq, Repr

/-- The address, a number sign and the slot. -/
def SourceKey.render (key : SourceKey) : String := key.addr ++ "#" ++ Nat.repr key.slot

/-- What the registry reports. -/
inductive Registry.Notice where
  /-- The key had an entry, which is replaced and whose connection is closed. -/
  | replaced (key : SourceKey)
  | registered (key : SourceKey)
  | unregistered (key : SourceKey)
deriving DecidableEq, Repr

/-- The log entry of a notice. -/
def Registry.Notice.entry : Registry.Notice → Log.Entry
  | .replaced key => ⟨.warn, "replacing stale registry entry", [("source", .text key.render)]⟩
  | .registered key => ⟨.trace, "connection registered", [("source", .text key.render)]⟩
  | .unregistered key => ⟨.trace, "connection unregistered", [("source", .text key.render)]⟩

/-- The live connections: at most one entry for a key, with the token that closes it. -/
structure Registry where
  entries : List (SourceKey × Token) := []
deriving DecidableEq, Repr

namespace Registry

/-- The closing token of a key's entry. -/
def get? (r : Registry) (key : SourceKey) : Option Token := r.entries.lookup key

/-- Takes the entry of a key out. -/
def erase (r : Registry) (key : SourceKey) : Registry :=
  ⟨r.entries.filter fun e => e.1 ≠ key⟩

/-- Puts an entry under a key, in the place of any earlier one. -/
def insert (r : Registry) (key : SourceKey) (close : Token) : Registry :=
  ⟨(key, close) :: (r.erase key).entries⟩

/-- Enters a connection.  An entry that is in the way is replaced, and its token cancelled. -/
def register (r : Registry) (tokens : TokenTree) (key : SourceKey) (close : Token) :
    Registry × TokenTree × List Notice :=
  match r.get? key with
  | some stale => (r.insert key close, tokens.cancel stale, [.replaced key, .registered key])
  | none => (r.insert key close, tokens, [.registered key])

/-- Removes the entry of a key, if there is one. -/
def unregister (r : Registry) (key : SourceKey) : Registry × List Notice :=
  match r.get? key with
  | some _ => (r.erase key, [.unregistered key])
  | none => (r, [])

/-- The number of entries. -/
def size (r : Registry) : Nat := r.entries.length

/-- Cancels the token of every entry.  The entries stay until their owners remove them. -/
def closeAll (r : Registry) (tokens : TokenTree) : TokenTree :=
  r.entries.foldl (fun tokens e => tokens.cancel e.2) tokens

/-- The addresses of the entries in alphabetical order, each as often as it occurs. -/
def addresses (r : Registry) : List String :=
  (r.entries.map fun e => e.1.addr).mergeSort (fun a b => a ≤ b)

/-! ## One equation per operation -/

@[simp] theorem get?_erase_self (r : Registry) (key : SourceKey) :
    (r.erase key).get? key = none := by
  simp only [get?, erase, Entries.lookup_filter_self]

theorem get?_erase_of_ne (r : Registry) {key other : SourceKey} (hne : other ≠ key) :
    (r.erase key).get? other = r.get? other := by
  simp only [get?, erase, Entries.lookup_filter_of_ne hne]

@[simp] theorem get?_insert_self (r : Registry) (key : SourceKey) (close : Token) :
    (r.insert key close).get? key = some close := by
  simp [get?, insert]

theorem get?_insert_of_ne (r : Registry) {key other : SourceKey} (close : Token)
    (hne : other ≠ key) : (r.insert key close).get? other = r.get? other := by
  have h : (other == key) = false := by simpa using hne
  rw [← get?_erase_of_ne r hne]
  simp only [get?, insert, List.lookup_cons, h]

/-! ## Entries -/

/-- The keys of the entries, in no particular order. -/
def keys (r : Registry) : List SourceKey := r.entries.map Prod.fst

/-- A registry differs from another one in the entry of one key at most. -/
structure AgreesBut (key : SourceKey) (r r' : Registry) : Prop where
  get? : ∀ other, other ≠ key → r'.get? other = r.get? other
  keys : ∀ other ∈ r'.keys, other = key ∨ other ∈ r.keys
  nodup : r.keys.Nodup → r'.keys.Nodup

theorem mem_keys_of_get? {r : Registry} {key : SourceKey} {close : Token}
    (h : r.get? key = some close) : key ∈ r.keys := by
  obtain ⟨entries⟩ := r
  simp only [get?, keys] at h ⊢
  induction entries with
  | nil => cases h
  | cons e es ih =>
    rw [List.lookup_cons] at h
    split at h
    · next same => simp [eq_of_beq same]
    · exact List.mem_cons_of_mem _ (ih h)

/-- Where no key has two entries, a key's entry is what is found under it. -/
theorem get?_of_mem {r : Registry} (nodup : r.keys.Nodup) {key : SourceKey} {close : Token}
    (h : (key, close) ∈ r.entries) : r.get? key = some close := by
  obtain ⟨entries⟩ := r
  simp only [get?, keys] at nodup h ⊢
  induction entries with
  | nil => cases h
  | cons e es ih =>
    rw [List.lookup_cons]
    rcases List.mem_cons.1 h with rfl | h
    · simp
    · obtain ⟨absent, nodup⟩ := List.nodup_cons.1 nodup
      have other : (key == e.1) = false := by
        simp only [beq_eq_false_iff_ne, ne_eq]
        intro same
        exact absent (List.mem_map.2 ⟨_, h, same⟩)
      rw [other]
      exact ih nodup h

theorem keys_erase (r : Registry) (key : SourceKey) :
    (r.erase key).keys = r.keys.filter fun k => k ≠ key := by
  simp only [keys, erase, List.filter_map, Function.comp_def]

namespace AgreesBut

variable {key : SourceKey} {r : Registry}

theorem refl (key : SourceKey) (r : Registry) : AgreesBut key r r :=
  ⟨fun _ _ => rfl, fun _ h => .inr h, id⟩

theorem erase (key : SourceKey) (r : Registry) : AgreesBut key r (r.erase key) where
  get? _ hne := r.get?_erase_of_ne hne
  keys other h := by
    rw [keys_erase] at h
    exact .inr (List.mem_filter.1 h).1
  nodup h := by
    rw [keys_erase]
    exact h.filter _

theorem insert (key : SourceKey) (r : Registry) (close : Token) :
    AgreesBut key r (r.insert key close) where
  get? _ hne := r.get?_insert_of_ne close hne
  keys other h := by
    rcases List.mem_cons.1 h with rfl | h
    · exact .inl rfl
    · exact (AgreesBut.erase key r).keys other h
  nodup h := by
    refine List.nodup_cons.2 ⟨?_, (AgreesBut.erase key r).nodup h⟩
    show key ∉ (r.erase key).keys
    simp [keys_erase]

theorem unregister (key : SourceKey) (r : Registry) : AgreesBut key r (r.unregister key).1 := by
  unfold Registry.unregister
  split
  · exact .erase key r
  · exact .refl key r

end AgreesBut

@[simp] theorem get?_unregister_self (r : Registry) (key : SourceKey) :
    (r.unregister key).1.get? key = none := by
  unfold unregister
  split
  · simp
  · assumption

end Registry

/-! ## Registrations and their owners -/

/-- A registry, the tokens in use and the registrations that are held, each under the name of its
holder. -/
structure Registrations where
  registry : Registry := {}
  tokens : NamedTokens := {}
  held : List (String × SourceKey) := []
deriving DecidableEq, Repr

namespace Registrations

/-- Drops the registration that a holder has, if any: the entry of its key goes.  It makes no
difference whether the holder gives it up or panics. -/
def drop (s : Registrations) (holder : String) : Registrations × Bool × List Registry.Notice :=
  match s.held.lookup holder with
  | none => (s, false, [])
  | some key =>
    let (registry, notices) := s.registry.unregister key
    ({ s with registry, held := s.held.filter fun h => h.1 ≠ holder }, true, notices)

/-- Enters a connection and hands its registration to a holder.  A registration that the holder
already has is dropped after that. -/
def register (s : Registrations) (holder : String) (key : SourceKey) (token : String) :
    Registrations × List Registry.Notice :=
  let (named, close) := s.tokens.resolve token
  let (registry, tree, notices) := s.registry.register named.tree key close
  let s := { s with registry, tokens := { named with tree } }
  let (s, _, dropped) := s.drop holder
  ({ s with held := (holder, key) :: s.held }, notices ++ dropped)

/-- Names a new token below another one. -/
def child (s : Registrations) (name parent : String) : Registrations :=
  { s with tokens := s.tokens.child name parent }

/-- Cancels a named token. -/
def cancel (s : Registrations) (name : String) : Registrations :=
  { s with tokens := s.tokens.cancel name }

/-- Closes every connection that has an entry, and tells how many these are. -/
def closeAll (s : Registrations) : Registrations × Nat :=
  ({ s with tokens := { s.tokens with tree := s.registry.closeAll s.tokens.tree } },
    s.registry.size)

end Registrations

end FeedCapture
