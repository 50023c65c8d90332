import FeedCapture.Number.Binary64
import Mathlib.Algebra.Group.Nat.Defs

/-!
# Whole numbers as doubles

Rounding a ratio to a double changes nothing when the ratio is a whole number that has at most 53
bits up to a power of two.  So whole numbers up to `2 ^ 53` are read exactly, and multiplying one of
them by a power of two is exact too.

## Main definitions

* `Dyadic.IsWhole` — the value of a double is a whole number

The main statements are `Dyadic.isWhole_ofRatio` and `Dyadic.IsWhole.mulNat`.
-/

namespace FeedCapture.Dyadic

/-- The value is the whole number `n`. -/
def IsWhole (x : Dyadic) (n : Nat) : Prop := x.numerator = n * x.denominator

/-- A whole number that 53 significant bits can hold. -/
def Fits (n : Nat) : Prop := ∃ m k, m ≤ 2 ^ 53 ∧ n = m * 2 ^ k

variable {num den n : Nat}

theorem denominator_pos (x : Dyadic) : 0 < x.denominator := by
  rw [denominator, Nat.one_shiftLeft]
  exact Nat.two_pow_pos _

theorem IsWhole.floor {x : Dyadic} (whole : x.IsWhole n) : x.floor = n := by
  rw [Dyadic.floor, whole, Nat.mul_div_cancel _ x.denominator_pos]

/-- A quotient without remainder needs no rounding. -/
theorem roundDiv_mul (pos : 0 < den) (q : Nat) : roundDiv (q * den) den = q := by
  simp only [roundDiv, Nat.mul_div_cancel _ pos, Nat.mul_mod_left, Nat.mul_zero, if_pos pos]

/-! ## The last place -/

theorem two_pow_mul_lt_of_log2 {k : Nat} (num_ne : num ≠ 0)
    (bits : k + (den.log2 + 1) ≤ num.log2) : 2 ^ k * den < num :=
  calc 2 ^ k * den
    _ < 2 ^ k * 2 ^ (den.log2 + 1) :=
      Nat.mul_lt_mul_of_pos_left Nat.lt_log2_self (Nat.two_pow_pos k)
    _ = 2 ^ (k + (den.log2 + 1)) := (Nat.pow_add ..).symm
    _ ≤ 2 ^ num.log2 := Nat.pow_le_pow_right (by decide) bits
    _ ≤ num := Nat.log2_self_le num_ne

/-- Above the units, the last place is low enough for 53 bits before it. -/
theorem two_pow_lastPlace_mul_le (num_ne : num ≠ 0) (den_ne : den ≠ 0) {e : Nat}
    (last : lastPlace num den = (e + 1 : Nat)) : 2 ^ (52 + (e + 1)) * den ≤ num := by
  simp only [lastPlace] at last
  split at last
  · next full =>
    -- the guess was one too low, and it is not negative
    have guess : (num.log2 : Int) - den.log2 - 53 = e := by omega
    simp only [guess, Int.toNat_neg_natCast, Int.toNat_natCast, Nat.shiftLeft_eq, Nat.pow_zero,
      Nat.mul_one, Nat.one_mul] at full
    rw [Nat.le_div_iff_mul_le (Nat.mul_pos (Nat.pos_of_ne_zero den_ne) (Nat.two_pow_pos e))] at full
    calc 2 ^ (52 + (e + 1)) * den
      _ = 2 ^ 53 * (den * 2 ^ e) := by
        rw [show 52 + (e + 1) = 53 + e by omega, Nat.pow_add, Nat.mul_comm den, Nat.mul_assoc]
      _ ≤ num := full
  · exact Nat.le_of_lt (two_pow_mul_lt_of_log2 num_ne (by omega))

/-- The last place of a whole number that fits is not above its lowest bit. -/
theorem two_pow_lastPlace_dvd (num_ne : num ≠ 0) (den_ne : den ≠ 0) (ratio : num = n * den)
    (fits : Fits n) {e : Nat} (last : lastPlace num den = e) : 2 ^ e ∣ n := by
  cases e with
  | zero => exact Nat.one_dvd n
  | succ e =>
    have high : 2 ^ (52 + (e + 1)) ≤ n := by
      have := two_pow_lastPlace_mul_le num_ne den_ne last
      rw [ratio] at this
      exact Nat.le_of_mul_le_mul_right this (Nat.pos_of_ne_zero den_ne)
    obtain ⟨m, k, le, rfl⟩ := fits
    have low : m * 2 ^ k ≤ 2 ^ (53 + k) := by
      rw [Nat.pow_add]
      exact Nat.mul_le_mul_right _ le
    have bits : 52 + (e + 1) ≤ 53 + k :=
      (Nat.pow_le_pow_iff_right (by decide)).1 (Nat.le_trans high low)
    rcases Nat.lt_or_ge e k with below | above
    · exact Nat.dvd_trans (Nat.pow_dvd_pow 2 below) (Nat.dvd_mul_left ..)
    · -- only the power of two itself is that large
      obtain rfl : e = k := by omega
      have top : m * 2 ^ e = 2 ^ (53 + e) :=
        Nat.le_antisymm low (by rwa [show 53 + e = 52 + (e + 1) by omega])
      rw [top]
      exact Nat.pow_dvd_pow 2 (by omega)

/-! ## Rounding -/

/-- **A whole number that fits is its own rounding**, whatever the ratio it is given by. -/
theorem isWhole_ofRatio (den_ne : den ≠ 0) (fits : Fits n) : (ofRatio (n * den) den).IsWhole n := by
  by_cases zero : n * den = 0
  · obtain rfl : n = 0 := (Nat.mul_eq_zero.1 zero).resolve_right den_ne
    simp [ofRatio, IsWhole, numerator]
  · rw [ofRatio, if_neg zero, IsWhole, numerator, denominator]
    simp only [Nat.shiftLeft_eq, Nat.one_mul]
    cases last : lastPlace (n * den) den with
    | ofNat e =>
      -- the places below the last one are all zero
      obtain ⟨q, rfl⟩ := two_pow_lastPlace_dvd zero den_ne rfl fits last
      have split : 2 ^ e * q * den = q * (den * 2 ^ e) := by
        rw [Nat.mul_comm (2 ^ e), Nat.mul_assoc, Nat.mul_comm (2 ^ e)]
      simp only [Int.ofNat_eq_natCast, Int.toNat_neg_natCast, Int.toNat_natCast, Nat.pow_zero,
        Nat.mul_one, split]
      rw [roundDiv_mul (Nat.mul_pos (Nat.pos_of_ne_zero den_ne) (Nat.two_pow_pos e)), Nat.mul_comm]
    | negSucc e =>
      have places : n * den * 2 ^ (e + 1) = n * 2 ^ (e + 1) * den := by
        rw [Nat.mul_assoc, Nat.mul_comm den, Nat.mul_assoc]
      simp only [Int.neg_negSucc, Int.toNat_natCast, Int.toNat_negSucc, Nat.pow_zero, Nat.mul_one,
        places, roundDiv_mul (Nat.pos_of_ne_zero den_ne)]

/-- Multiplying a whole number is exact when the product fits. -/
theorem IsWhole.mulNat {x : Dyadic} (whole : x.IsWhole n) (factor : Nat)
    (fits : Fits (n * factor)) : (x.mulNat factor).IsWhole (n * factor) := by
  have ratio : x.numerator * factor = n * factor * x.denominator := by
    rw [whole, Nat.mul_right_comm]
  rw [Dyadic.mulNat, ratio]
  exact isWhole_ofRatio (Nat.ne_of_gt x.denominator_pos) fits

theorem fits_mul_two_pow (le : n ≤ 2 ^ 53) (k : Nat) : Fits (n * 2 ^ k) := ⟨n, k, le, rfl⟩

theorem isWhole_ofNat (le : n ≤ 2 ^ 53) : (ofNat n).IsWhole n := by
  simpa [ofNat] using isWhole_ofRatio (by decide : (1 : Nat) ≠ 0) ⟨n, 0, le, by simp⟩

/-- Multiplying a whole number of 53 bits by a power of two is exact. -/
theorem isWhole_mulNat_ofNat (le : n ≤ 2 ^ 53) (k : Nat) :
    ((ofNat n).mulNat (2 ^ k)).IsWhole (n * 2 ^ k) :=
  (isWhole_ofNat le).mulNat _ (fits_mul_two_pow le k)

end FeedCapture.Dyadic
