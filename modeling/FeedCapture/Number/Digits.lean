/-!
# Runs of digits

Natural numbers as they are written: runs of decimal digits, and runs of digits of any base up to
sixteen, where letters of either case follow the decimal digits.

## Main definitions

* `Digits.value`, `Digits.decimal?` — decimal digits
* `Digits.digit?`, `Digits.natural?` — digits of a base
* `Digits.hex?` — so many hexadecimal digits
-/

namespace FeedCapture.Digits

/-- The value of a run of decimal digits; that of no digits is zero. -/
def value (digits : List Char) : Nat :=
  digits.foldl (fun n c => 10 * n + (c.toNat - '0'.toNat)) 0

/-- The value of a text that is a non-empty run of decimal digits. -/
def decimal? (text : List Char) : Option Nat :=
  if text.isEmpty || !text.all Char.isDigit then none else some (value text)

/-- The value of a digit in a base of at most sixteen. -/
def digit? (base : Nat) (c : Char) : Option Nat :=
  let n :=
    if c.isDigit then c.toNat - '0'.toNat
    else if 'a' ≤ c ∧ c ≤ 'f' then c.toNat - 'a'.toNat + 10
    else if 'A' ≤ c ∧ c ≤ 'F' then c.toNat - 'A'.toNat + 10
    else 16
  if n < min base 16 then some n else none

/-- The value of a text that is a non-empty run of digits of a base. -/
def natural? (base : Nat) (text : List Char) : Option Nat :=
  if text.isEmpty then none
  else text.foldl (fun n c => do return base * (← n) + (← digit? base c)) (some 0)

/-- The value of the first `count` characters of a text, if these are hexadecimal digits, and the
text after them. -/
def hex? (count : Nat) (text : List Char) : Option (Nat × List Char) :=
  let digits := text.take count
  if digits.length < count then none
  else (natural? 16 digits).map fun n => (n, text.drop count)

/-- The character with a number, if it is the number of one. -/
def char? (n : Nat) : Option Char :=
  if n < 0xD800 ∨ (0xE000 ≤ n ∧ n < 0x110000) then some (Char.ofNat n) else none

theorem decimal?_eq_some_iff {text : List Char} {n : Nat} :
    decimal? text = some n ↔ text ≠ [] ∧ (∀ c ∈ text, c.isDigit) ∧ value text = n := by
  unfold decimal?
  split
  · next h =>
    simp only [reduceCtorEq, false_iff, not_and]
    intro hne hall
    simp only [Bool.or_eq_true, List.isEmpty_iff, Bool.not_eq_true', List.all_eq_false] at h
    obtain h | ⟨c, hc, hd⟩ := h
    · exact absurd h hne
    · exact absurd (hall c hc) hd
  · next h =>
    simp only [Bool.or_eq_true, not_or, List.isEmpty_iff, Bool.not_eq_true', Bool.not_eq_false,
      List.all_eq_true] at h
    simp only [Option.some.injEq, h.1, ne_eq, not_false_eq_true, true_and]
    exact ⟨fun e => ⟨h.2, e⟩, fun e => e.2⟩

end FeedCapture.Digits
