import FeedCapture.Number.Binary64
import FeedCapture.Number.Digits

/-!
# Signed doubles and their decimal text

A double as it is read from decimal text: a sign and a finite magnitude, an infinity, or not a
number.

## Main definitions

* `Real64`, `Real64.ofDecimal`, `Real64.parse?`
* `Real64.render` — the shortest text without an exponent
* `Real64.renderScientific` — the shortest text, with an exponent for very large and small numbers
-/

namespace FeedCapture

/-- A double. -/
inductive Real64 where
  | finite (negative : Bool) (magnitude : Dyadic)
  | infinite (negative : Bool)
  | nan
deriving DecidableEq, Repr

namespace Real64

/-- The double nearest to `digits * 10 ^ place`. -/
def ofDecimal (negative : Bool) (digits : Nat) (place : Int) : Real64 :=
  if digits = 0 then .finite negative ⟨0, 0⟩
  else if 400 < place then .infinite negative
  else
    let x := Dyadic.ofRatio (digits * Nat.pow 10 place.toNat) (Nat.pow 10 (-place).toNat)
    if x.isInfinite then .infinite negative else .finite negative x

/-- Reads the exponent after its mark: an optional sign and at least one digit. -/
def exponent? : List Char → Option Int
  | '+' :: digits => (Digits.decimal? digits).map fun n => (n : Int)
  | '-' :: digits => (Digits.decimal? digits).map fun n => -(n : Int)
  | digits => (Digits.decimal? digits).map fun n => (n : Int)

/-- Reads decimal digits with at most one point and an optional exponent; there must be a digit
before the exponent. -/
def unsigned? (negative : Bool) (text : List Char) : Option Real64 :=
  let whole := text.takeWhile Char.isDigit
  let rest := text.dropWhile Char.isDigit
  let (places, rest) := match rest with
    | '.' :: rest => (rest.takeWhile Char.isDigit, rest.dropWhile Char.isDigit)
    | _ => ([], rest)
  if whole.isEmpty && places.isEmpty then none
  else
    let digits := Digits.value (whole ++ places)
    match rest with
    | [] => some (ofDecimal negative digits (-(places.length : Int)))
    | mark :: rest =>
      if mark = 'e' || mark = 'E' then
        (exponent? rest).map fun e => ofDecimal negative digits (e - places.length)
      else none

/-- Reads a decimal number with an optional sign. -/
def parse? : List Char → Option Real64
  | '-' :: text => unsigned? true text
  | '+' :: text => unsigned? false text
  | text => unsigned? false text

/-- Neither infinite nor undefined. -/
def isFinite : Real64 → Bool
  | .finite _ _ => true
  | _ => false

/-- The shortest text that reads back, without an exponent: `1.5`, `1000`, `-0`, `inf`, `NaN`. -/
def render : Real64 → String
  | .finite negative x => (if negative then "-" else "") ++ x.render
  | .infinite negative => if negative then "-inf" else "inf"
  | .nan => "NaN"

/-- Digits with a point after the first `before` of them. -/
def pointed (digits : List Char) (before : Nat) : String :=
  String.ofList (digits.take before ++ '.' :: digits.drop before)

/-- The shortest text that reads back, with an exponent where the number is below `1e-5` or not
below `1e16`, and otherwise with a point. -/
def renderScientific (x : Real64) : String :=
  match x with
  | .finite negative x =>
    if x.mantissa = 0 then if negative then "-0.0" else "0.0"
    else
      let (value, place) := x.shortest
      let digits := (Nat.repr value).toList
      let before : Int := digits.length + place
      (if negative then "-" else "") ++
        if 0 ≤ place ∧ before ≤ 16 then x.render ++ ".0"
        else if -5 < before ∧ before ≤ 16 then x.render
        else
          (if digits.length = 1 then Nat.repr value else pointed digits 1) ++ "e" ++
            toString (before - 1)
  | x => x.render

end Real64

end FeedCapture
