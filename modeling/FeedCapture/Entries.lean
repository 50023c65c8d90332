/-!
# Entries under keys

Lists of entries, each under a key, in which the first entry of a key is the one that is found.
Taking the entries of one key out leaves those of the other keys alone.  In other lists the entries
are found by their places.

## Main statements

* `lookup_filter_of_ne`, `lookup_filter_self` — what is found after the entries of a key were taken
  out
* `cases_of_getElem?_set`, `cases_of_getElem?_concat` — what is found after an entry was put in a
  place or added
-/

namespace FeedCapture.Entries

/-! ## Places -/

/-- What stands in a list after one of its entries was replaced. -/
theorem cases_of_getElem?_set {α : Type} {l : List α} {m n : Nat} {x y : α}
    (h : (l.set n x)[m]? = some y) : (m = n ∧ y = x) ∨ (m ≠ n ∧ l[m]? = some y) := by
  by_cases same : n = m
  · subst same
    have there : n < l.length := by simpa using (List.getElem?_eq_some_iff.1 h).1
    rw [List.getElem?_set_self there] at h
    exact .inl ⟨rfl, (Option.some.inj h).symm⟩
  · rw [List.getElem?_set_ne same] at h
    exact .inr ⟨Ne.symm same, h⟩

/-- An entry that was put in the place of another one is there. -/
theorem getElem?_set_of_some {α : Type} {l : List α} {n : Nat} {x : α} (there : l[n]? = some x)
    (y : α) : (l.set n y)[n]? = some y :=
  List.getElem?_set_self (List.getElem?_eq_some_iff.1 there).1

/-- What stands in a list after an entry was added. -/
theorem cases_of_getElem?_concat {α : Type} {l : List α} {m : Nat} {x y : α}
    (h : (l ++ [x])[m]? = some y) : l[m]? = some y ∨ y = x := by
  rw [List.getElem?_append] at h
  split at h
  · exact .inl h
  · exact .inr (List.mem_singleton.1 (List.mem_of_getElem? h))

/-! ## Keys -/

variable {α β : Type} [BEq α] [LawfulBEq α] [DecidableEq α] {entries : List (α × β)}

theorem lookup_filter_of_ne {key other : α} (hne : other ≠ key) :
    (entries.filter fun e => e.1 ≠ key).lookup other = entries.lookup other := by
  induction entries with
  | nil => rfl
  | cons e es ih =>
    obtain ⟨k, value⟩ := e
    rw [List.lookup_cons]
    by_cases h : k = key
    · have h' : (other == k) = false := by simpa [h] using hne
      rw [List.filter_cons_of_neg (by simp [h]), h']
      exact ih
    · rw [List.filter_cons_of_pos (by simp [h]), List.lookup_cons, ih]

theorem lookup_filter_self (key : α) :
    (entries.filter fun e => e.1 ≠ key).lookup key = none := by
  induction entries with
  | nil => rfl
  | cons e es ih =>
    obtain ⟨k, value⟩ := e
    by_cases h : k = key
    · rw [List.filter_cons_of_neg (by simp [h])]
      exact ih
    · have h' : (key == k) = false := by simpa using fun c => h c.symm
      rw [List.filter_cons_of_pos (by simp [h]), List.lookup_cons, h']
      exact ih

end FeedCapture.Entries
