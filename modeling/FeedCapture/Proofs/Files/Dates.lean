import FeedCapture.Calendar

/-!
# Dates as texts

A date can be read off its text, so different dates have different texts; and the order of dates is
the order of time.

## Main definitions

* `Date.latest?` — the latest of some dates

The main statements are `Date.render_injective`, `Date.lt_trans` and `Date.latest?_eq_some_iff`.
-/

namespace FeedCapture.Date

/-! ## Texts -/

theorem toList_padded (width n : Nat) :
    (padded width n).toList =
      List.replicate (width - (Nat.toDigits 10 n).length) '0' ++ Nat.toDigits 10 n := by
  simp [padded, Nat.toList_repr]

/-- The zeros in front do not change the number. -/
theorem ofDigitChars_padded (width n : Nat) :
    Nat.ofDigitChars 10 (padded width n).toList 0 = n := by
  rw [toList_padded, Nat.ofDigitChars_append, Nat.ofDigitChars_replicate_zero, Nat.mul_zero,
    Nat.ofDigitChars_ten_toDigits]

theorem isDigit_of_mem_padded {width n : Nat} {c : Char} (h : c ∈ (padded width n).toList) :
    c.isDigit = true := by
  rw [toList_padded] at h
  rcases List.mem_append.1 h with h | h
  · rw [(List.mem_replicate.1 h).2]
    decide
  · exact Nat.isDigit_of_mem_toDigits (by decide) (by decide) h

/-- What stands behind the last hyphen, and what stands before it, can be told apart. -/
theorem append_cons_inj {c : Char} {xs ys ds es : List Char} (hd : c ∉ ds) (he : c ∉ es)
    (h : xs ++ c :: ds = ys ++ c :: es) : xs = ys ∧ ds = es := by
  rcases List.append_eq_append_iff.1 h with ⟨as, rfl, rest⟩ | ⟨as, rfl, rest⟩
  · cases as with
    | nil => exact ⟨(List.append_nil xs).symm, (List.cons.inj rest).2⟩
    | cons a as => exact absurd (by rw [(List.cons.inj rest).2]; simp) hd
  · cases as with
    | nil => exact ⟨List.append_nil ys, (List.cons.inj rest).2.symm⟩
    | cons a as => exact absurd (by rw [(List.cons.inj rest).2]; simp) he

theorem notMem_padded {width n : Nat} {c : Char} (h : c.isDigit = false) :
    c ∉ (padded width n).toList := by
  intro hc
  rw [isDigit_of_mem_padded hc] at h
  cases h

theorem padded_injective {width m n : Nat} (h : padded width m = padded width n) : m = n := by
  rw [← ofDigitChars_padded width m, h, ofDigitChars_padded]

/-- The sign of a year that is written with one. -/
def yearSign (year : Int) : Char := if year < 0 then '-' else '+'

theorem toList_renderYear (year : Int) :
    (renderYear year).toList =
      if 0 ≤ year ∧ year ≤ 9999 then (padded 4 year.toNat).toList
      else yearSign year :: (padded 4 year.natAbs).toList := by
  unfold renderYear yearSign
  split
  · rfl
  · split <;> simp

/-- A year without a sign is none with a sign. -/
theorem padded_ne_sign (n : Nat) (year : Int) (digits : List Char) :
    (padded 4 n).toList ≠ yearSign year :: digits := by
  intro h
  have digit : (yearSign year).isDigit = true := isDigit_of_mem_padded (by rw [h]; simp)
  unfold yearSign at digit
  split at digit <;> cases digit

theorem renderYear_injective {a b : Int} (h : renderYear a = renderYear b) : a = b := by
  have h := congrArg String.toList h
  rw [toList_renderYear, toList_renderYear] at h
  split at h
  · split at h
    · have := padded_injective (String.toList_injective h)
      omega
    · exact absurd h (padded_ne_sign _ _ _)
  · split at h
    · exact absurd h.symm (padded_ne_sign _ _ _)
    · obtain ⟨sign, digits⟩ := List.cons.inj h
      have := padded_injective (String.toList_injective digits)
      unfold yearSign at sign
      split at sign <;> split at sign <;> first | omega | cases sign

/-- A date can be read off its text. -/
theorem render_injective {a b : Date} (h : a.render = b.render) : a = b := by
  have parts : ∀ d : Date, d.render.toList = (renderYear d.year).toList ++
      '-' :: ((padded 2 d.month).toList ++ '-' :: (padded 2 d.day).toList) := by
    intro d
    simp [render]
  have h := congrArg String.toList h
  rw [parts, parts, ← List.cons_append, ← List.append_assoc, ← List.cons_append,
    ← List.append_assoc] at h
  obtain ⟨h, day⟩ := append_cons_inj (notMem_padded (by decide)) (notMem_padded (by decide)) h
  obtain ⟨year, month⟩ := append_cons_inj (notMem_padded (by decide))
    (notMem_padded (by decide)) h
  obtain ⟨y, m, d⟩ := a
  obtain ⟨y', m', d'⟩ := b
  simp only [mk.injEq]
  exact ⟨renderYear_injective (String.toList_injective year),
    padded_injective (String.toList_injective month),
    padded_injective (String.toList_injective day)⟩

theorem notMem_renderYear {year : Int} {c : Char} (digit : c.isDigit = false) (plus : c ≠ '+')
    (minus : c ≠ '-') : c ∉ (renderYear year).toList := by
  rw [toList_renderYear]
  split
  · exact notMem_padded digit
  · rw [List.mem_cons]
    rintro (rfl | h)
    · unfold yearSign at *
      split at plus <;> simp_all
    · exact notMem_padded digit h

/-- The text of a date is made of digits, hyphens and signs. -/
theorem notMem_render (d : Date) {c : Char} (digit : c.isDigit = false) (plus : c ≠ '+')
    (minus : c ≠ '-') : c ∉ d.render.toList := by
  simp [render, notMem_renderYear digit plus minus, notMem_padded digit, minus]

/-! ## Order -/

theorem lt_iff {a b : Date} : a.lt b = true ↔ a.year < b.year ∨ a.year = b.year ∧
    (a.month < b.month ∨ a.month = b.month ∧ a.day < b.day) := by
  simp [lt]

theorem lt_irrefl (a : Date) : a.lt a = false := by
  simp [lt]

theorem lt_trans {a b c : Date} (hab : a.lt b = true) (hbc : b.lt c = true) : a.lt c = true := by
  rw [lt_iff] at *
  omega

theorem le_iff {a b : Date} : a.le b = true ↔ a.year < b.year ∨ a.year = b.year ∧
    (a.month < b.month ∨ a.month = b.month ∧ a.day ≤ b.day) := by
  rw [le, Bool.not_eq_true', ← Bool.not_eq_true, lt_iff]
  omega

theorem le_refl (a : Date) : a.le a = true := by
  rw [le_iff]
  omega

theorem le_trans {a b c : Date} (hab : a.le b = true) (hbc : b.le c = true) : a.le c = true := by
  rw [le_iff] at *
  omega

theorem le_of_lt {a b : Date} (hab : a.lt b = true) : a.le b = true := by
  rw [le_iff]
  rw [lt_iff] at hab
  omega

theorem lt_of_le_of_lt {a b c : Date} (hab : a.le b = true) (hbc : b.lt c = true) :
    a.lt c = true := by
  rw [le_iff] at hab
  rw [lt_iff] at *
  omega

theorem lt_of_lt_of_le {a b c : Date} (hab : a.lt b = true) (hbc : b.le c = true) :
    a.lt c = true := by
  rw [le_iff] at hbc
  rw [lt_iff] at *
  omega

theorem ne_of_lt {a b : Date} (hab : a.lt b = true) : a ≠ b := by
  rintro rfl
  rw [lt_irrefl] at hab
  cases hab

theorem le_of_not_le {a b : Date} (h : ¬ a.le b = true) : b.le a = true := by
  rw [le_iff] at *
  omega

theorem le_antisymm {a b : Date} (hab : a.le b = true) (hba : b.le a = true) : a = b := by
  obtain ⟨y, m, d⟩ := a
  obtain ⟨y', m', d'⟩ := b
  simp only [le_iff, mk.injEq] at *
  omega

/-- The latest of some dates. -/
def latest? (dates : List Date) : Option Date := dates.find? fun d => dates.all fun e => e.le d

theorem latest?_eq_some_iff {dates : List Date} {d : Date} :
    latest? dates = some d ↔ d ∈ dates ∧ ∀ e ∈ dates, e.le d = true := by
  constructor
  · intro h
    exact ⟨List.mem_of_find?_eq_some h, by simpa using List.find?_some h⟩
  · rintro ⟨mem, most⟩
    obtain ⟨d', found⟩ : ∃ d', latest? dates = some d' :=
      Option.isSome_iff_exists.1 (List.find?_isSome.2 ⟨d, mem, by simpa using most⟩)
    have most' : ∀ e ∈ dates, e.le d' = true := by simpa using List.find?_some found
    rw [found, le_antisymm (most d' (List.mem_of_find?_eq_some found)) (most' d mem)]

end FeedCapture.Date
