import FeedCapture.Document

/-!
# Documents over documents

What is found in a document after others were put over it.  Two maps are merged key by key, so what
a field of a section comes to is what the highest document has for it, whatever the documents below
it have.

## Main definitions

* `Document.isMap`, `Document.field?` — maps, and the value of a field in a section
* `Document.Alike` — the same value, or two maps
* `Document.Gathers` — what the fields of some sections come to in a document

The main statements say what is found under a key of merged maps (`lookup_mergeEntries`), and that
the higher of two documents, and the last one of several, decides what a field comes to
(`Gathers.merge`, `Gathers.foldl`).
-/

namespace FeedCapture.Document

/-! ## Looking up -/

@[simp] theorem lookup_nil (key : String) : lookup [] key = none := rfl

/-- A later entry hides what was found before. -/
theorem foldl_lookup (entries : List (String × Document)) (key : String)
    (found : Option Document) :
    entries.foldl (fun found e => if e.1 = key then some e.2 else found) found =
      (lookup entries key).or found := by
  induction entries generalizing found with
  | nil => rfl
  | cons e rest ih =>
    simp only [lookup, List.foldl_cons]
    rw [ih, ih]
    by_cases here : e.1 = key <;> simp [here]

theorem lookup_append (xs ys : List (String × Document)) (key : String) :
    lookup (xs ++ ys) key = (lookup ys key).or (lookup xs key) := by
  rw [lookup, List.foldl_append, foldl_lookup]
  rfl

theorem lookup_cons (e : String × Document) (rest : List (String × Document)) (key : String) :
    lookup (e :: rest) key = (lookup rest key).or (if e.1 = key then some e.2 else none) := by
  rw [← List.singleton_append, lookup_append]
  rfl

theorem lookup_eq_none_iff {entries : List (String × Document)} {key : String} :
    lookup entries key = none ↔ ∀ e ∈ entries, e.1 ≠ key := by
  induction entries with
  | nil => simp
  | cons e rest ih => simp [lookup_cons, ih, and_comm]

/-- Entries under another key do not matter. -/
theorem lookup_filter_of_ne {key other : String} (hne : other ≠ key)
    (entries : List (String × Document)) :
    lookup (entries.filter fun e => e.1 ≠ key) other = lookup entries other := by
  induction entries with
  | nil => rfl
  | cons e rest ih =>
    by_cases here : e.1 = key
    · have : e.1 ≠ other := fun h => hne (h.symm.trans here)
      rw [List.filter_cons_of_neg (by simpa using here), ih, lookup_cons, if_neg this, Option.or_none]
    · rw [List.filter_cons_of_pos (by simpa using here), lookup_cons, ih, lookup_cons]

theorem lookup_put_self (entries : List (String × Document)) (key : String) (d : Document) :
    lookup (put entries key d) key = some d := by
  simp [put, lookup_append, lookup_cons]

theorem lookup_put_of_ne {key other : String} (hne : other ≠ key)
    (entries : List (String × Document)) (d : Document) :
    lookup (put entries key d) other = lookup entries other := by
  rw [put, lookup_append, lookup_filter_of_ne hne, lookup_cons, if_neg (Ne.symm hne)]
  rfl

/-! ## Merging -/

/-- The higher document over what may be under the same key. -/
def mergeOver (low : Option Document) (d : Document) : Document :=
  match low with
  | some l => merge l d
  | none => d

/-- Under a key of merged maps stands what the higher one has there, merged over what the lower one
has, or else what the lower one has. -/
theorem lookup_mergeEntries (low high : List (String × Document)) (key : String) :
    lookup (mergeEntries low high) key =
      ((lookup high key).map (mergeOver (lookup low key))).or (lookup low key) := by
  induction high generalizing low with
  | nil => simp [mergeEntries]
  | cons e rest ih =>
    obtain ⟨k, d⟩ := e
    rw [mergeEntries, lookup_cons]
    split
    · next later =>
      -- the entry is hidden by a later one under the same key
      rw [ih]
      by_cases here : k = key
      · obtain ⟨v, found⟩ : ∃ v, lookup rest key = some v := by
          rw [← Option.ne_none_iff_exists', Ne, lookup_eq_none_iff]
          obtain ⟨e, he, same⟩ := List.any_eq_true.1 later
          exact fun none => none e he ((decide_eq_true_iff.1 same).trans here)
        simp [found]
      · simp [here]
    · next last =>
      rw [ih]
      by_cases here : k = key
      · subst here
        have none : lookup rest k = none := by
          rw [lookup_eq_none_iff]
          intro e he same
          exact last (List.any_eq_true.2 ⟨e, he, decide_eq_true same⟩)
        rw [none, lookup_put_self]
        simp only [Option.map_none, Option.none_or, if_true, Option.map_some, Option.some_or]
        cases lookup low k <;> rfl
      · rw [lookup_put_of_ne (Ne.symm here)]
        simp [here]

/-- The document is a map. -/
def isMap : Document → Bool
  | .map _ => true
  | _ => false

theorem isMap_iff {d : Document} : d.isMap = true ↔ ∃ entries, d = .map entries := by
  cases d <;> simp [isMap]

theorem merge_of_isMap_eq_false (low : Document) {d : Document} (h : d.isMap = false) :
    merge low d = d := by
  cases d <;> first | rfl | cases h

@[simp] theorem merge_map_map (low high : List (String × Document)) :
    merge (.map low) (.map high) = .map (mergeEntries low high) := rfl

theorem isMap_merge_map (low : Document) (high : List (String × Document)) :
    (merge low (.map high)).isMap = true := by
  cases low <;> rfl

/-! ## Fields of sections -/

/-- The value of a field in a section. -/
def field? (d : Document) (section_ field : String) : Option Document :=
  (d.get? section_).bind fun s => s.get? field

/-- The same value, or two maps. -/
inductive Alike : Option Document → Option Document → Prop
  | same (o : Option Document) : Alike o o
  | maps (xs ys : List (String × Document)) : Alike (some (.map xs)) (some (.map ys))

/-- What is not a map takes the place of what it is put over; a map becomes some map. -/
theorem alike_merge (low d : Document) : Alike (some (merge low d)) (some d) := by
  cases h : d.isMap with
  | false => rw [merge_of_isMap_eq_false low h]; exact .same _
  | true =>
    obtain ⟨high, rfl⟩ := isMap_iff.1 h
    obtain ⟨entries, merged⟩ := isMap_iff.1 (isMap_merge_map low high)
    rw [merged]
    exact .maps ..

theorem Alike.or {x y low low' : Option Document} (h : Alike x y) (hlow : Alike low low') :
    Alike (x.or low) (y.or low') := by
  cases h with
  | same =>
    cases x with
    | none => simpa using hlow
    | some d => exact .same _
  | maps xs ys => exact .maps xs ys

theorem Alike.symm {x y : Option Document} (h : Alike x y) : Alike y x := by
  cases h with
  | same => exact .same _
  | maps xs ys => exact .maps ys xs

theorem Alike.trans {x y z : Option Document} (h : Alike x y) (h' : Alike y z) : Alike x z := by
  cases h with
  | same => exact h'
  | maps xs ys =>
    cases h' with
    | same => exact .maps ..
    | maps => exact .maps ..

/-- The document is a map whose sections are maps, and its fields come to the given values, as far
as these are no maps. -/
structure Gathers (sections : List String) (d : Document)
    (given : String → String → Option Document) : Prop where
  isMap : d.isMap = true
  maps : ∀ s ∈ sections, ∀ v ∈ d.get? s, v.isMap = true
  fields : ∀ s ∈ sections, ∀ field, Alike (d.field? s field) (given s field)

variable {sections : List String}

theorem gathers_empty (sections : List String) :
    Gathers sections (.map []) fun _ _ => none := by
  refine ⟨rfl, fun s _ v hv => ?_, fun _ _ _ => .same _⟩
  cases hv

/-- Every document whose sections are maps has what it has. -/
theorem gathers_self {d : Document} (isMap : d.isMap = true)
    (maps : ∀ s ∈ sections, ∀ v ∈ d.get? s, v.isMap = true) : Gathers sections d d.field? :=
  ⟨isMap, maps, fun _ _ _ => .same _⟩

/-- What the higher document gives for a field decides what the field comes to. -/
theorem Gathers.merge {low high : Document} {given given' : String → String → Option Document}
    (hlow : Gathers sections low given) (hhigh : Gathers sections high given') :
    Gathers sections (low.merge high) fun s field => (given' s field).or (given s field) := by
  obtain ⟨ls, rfl⟩ := isMap_iff.1 hlow.isMap
  obtain ⟨hs, rfl⟩ := isMap_iff.1 hhigh.isMap
  have found : ∀ s ∈ sections,
      (lookup (mergeEntries ls hs) s = lookup ls s ∧ lookup hs s = none) ∨
      (lookup (mergeEntries ls hs) s = lookup hs s ∧ lookup ls s = none) ∨
      ∃ xs ys, lookup ls s = some (.map xs) ∧ lookup hs s = some (.map ys) ∧
        lookup (mergeEntries ls hs) s = some (.map (mergeEntries xs ys)) := by
    intro s hs'
    rw [lookup_mergeEntries]
    cases hi : lookup hs s with
    | none => exact .inl ⟨by simp, rfl⟩
    | some h =>
      cases lo : lookup ls s with
      | none => exact .inr (.inl ⟨by simp [mergeOver], rfl⟩)
      | some l =>
        obtain ⟨xs, rfl⟩ := isMap_iff.1 (hlow.maps s hs' l lo)
        obtain ⟨ys, rfl⟩ := isMap_iff.1 (hhigh.maps s hs' h hi)
        exact .inr (.inr ⟨xs, ys, rfl, rfl, by simp [mergeOver]⟩)
  refine ⟨rfl, fun s hs' v hv => ?_, fun s hs' field => ?_⟩
  · have hv : lookup (mergeEntries ls hs) s = some v := hv
    rcases found s hs' with ⟨same, -⟩ | ⟨same, -⟩ | ⟨xs, ys, -, -, both⟩
    · exact hlow.maps s hs' v (same.symm.trans hv)
    · exact hhigh.maps s hs' v (same.symm.trans hv)
    · obtain rfl : Document.map (mergeEntries xs ys) = v := by simpa [both] using hv
      rfl
  · have below := hlow.fields s hs' field
    have above := hhigh.fields s hs' field
    simp only [field?, get?, merge_map_map] at below above ⊢
    rcases found s hs' with ⟨same, none⟩ | ⟨same, none⟩ | ⟨xs, ys, lo, hi, both⟩
    · rw [none] at above
      simpa [same] using above.or below
    · rw [none] at below
      simpa [same] using above.or below
    · simp only [lo, hi, both, Option.bind_some] at below above ⊢
      rw [lookup_mergeEntries]
      refine .trans (.or ?_ (.same _)) (above.or below)
      cases lookup ys field with
      | none => exact .same _
      | some d =>
        cases lookup xs field with
        | none => exact .same _
        | some l => exact alike_merge l d

/-- Of documents that are put over one another, the last one that has a field decides. -/
theorem Gathers.foldl {docs : List Document} {d : Document}
    {given : String → String → Option Document} (h : Gathers sections d given)
    (isMap : ∀ x ∈ docs, x.isMap = true)
    (maps : ∀ x ∈ docs, ∀ name ∈ sections, ∀ v ∈ x.get? name, v.isMap = true) :
    Gathers sections (docs.foldl Document.merge d) fun name field =>
      (docs.reverse.findSome? fun x => x.field? name field).or (given name field) := by
  induction docs generalizing d given with
  | nil => exact h
  | cons x docs ih =>
    have upper := h.merge (gathers_self (isMap x (by simp)) (maps x (by simp)))
    have all := ih upper (fun y hy => isMap y (by simp [hy])) fun y hy => maps y (by simp [hy])
    simpa [List.findSome?_append, Option.or_assoc] using all

end FeedCapture.Document
