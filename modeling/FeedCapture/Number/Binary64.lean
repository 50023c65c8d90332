/-!
# Double-precision numbers

The finite non-negative values of the binary format with 53 significant bits, as exact pairs
`mantissa * 2 ^ exponent`.  Everything is done on natural numbers: a value is rounded from an exact
ratio, and printed by comparing exact ratios, so no rounding is hidden in an operation.

## Main definitions

* `Dyadic` — a mantissa and a power of two
* `Dyadic.ofRatio` — the nearest double to a ratio, a half going to the even mantissa
* `Dyadic.shortest` — the fewest decimal digits that read back as the same double
* `Dyadic.fixed` — a fixed number of decimal places, a half going to the even digit
-/

namespace FeedCapture

/-- The number `mantissa * 2 ^ exponent`. -/
structure Dyadic where
  mantissa : Nat
  exponent : Int
deriving DecidableEq, Repr

namespace Dyadic

/-- The quotient `num / den` rounded to the nearest whole number, a half to the even one. -/
def roundDiv (num den : Nat) : Nat :=
  let q := num / den
  let r := num % den
  if 2 * r < den then q
  else if den < 2 * r then q + 1
  else if q % 2 = 0 then q else q + 1

/-- The numerator of the value over `denominator`. -/
def numerator (x : Dyadic) : Nat := x.mantissa <<< x.exponent.toNat

/-- The power of two below the fraction bar; `1` when the exponent is not negative. -/
def denominator (x : Dyadic) : Nat := 1 <<< (-x.exponent).toNat

/-- The whole part of the value. -/
def floor (x : Dyadic) : Nat := x.numerator / x.denominator

/-- The power of two of the last mantissa bit when `num / den` is written with 53 bits, but never
below the smallest power that the format has. -/
def lastPlace (num den : Nat) : Int :=
  let guess : Int := (Nat.log2 num : Int) - (Nat.log2 den : Int) - 53
  let scaled := (num <<< (-guess).toNat) / (den <<< guess.toNat)
  max (if 1 <<< 53 ≤ scaled then guess + 1 else guess) (-1074)

/-- The double nearest to `num / den`, a half going to the even mantissa.  There is no upper bound
on the exponent; `isInfinite` tells the values that the format cannot hold. -/
def ofRatio (num den : Nat) : Dyadic :=
  if num = 0 then ⟨0, 0⟩
  else
    let e := lastPlace num den
    ⟨roundDiv (num <<< (-e).toNat) (den <<< e.toNat), e⟩

/-- The double nearest to a natural number. -/
def ofNat (n : Nat) : Dyadic := ofRatio n 1

/-- The value is past the largest finite double. -/
def isInfinite (x : Dyadic) : Bool := x.denominator <<< 1024 ≤ x.numerator

/-- The rounded sum of two doubles. -/
def add (x y : Dyadic) : Dyadic :=
  ofRatio (x.numerator * y.denominator + y.numerator * x.denominator)
    (x.denominator * y.denominator)

/-- The rounded quotient of a double by a positive number that is itself a double. -/
def divNat (x : Dyadic) (n : Nat) : Dyadic := ofRatio x.numerator (x.denominator * n)

/-- The rounded product of a double and a number that is itself a double. -/
def mulNat (x : Dyadic) (n : Nat) : Dyadic := ofRatio (x.numerator * n) x.denominator

/-! ## Decimal text -/

/-- How many decimal digits stand before the point: the least `d` with `num < den * 10 ^ d`, counted
from `d` upwards with `fuel` tries. -/
def digitsBeforePoint (num den : Nat) : Nat → Int → Int
  | 0, d => d
  | fuel + 1, d =>
    if num * Nat.pow 10 (-d).toNat < den * Nat.pow 10 d.toNat then
      digitsBelow num den fuel d
    else digitsBeforePoint num den fuel (d + 1)
where
  /-- Steps down while the next smaller count still bounds the value. -/
  digitsBelow (num den : Nat) : Nat → Int → Int
    | 0, d => d
    | fuel + 1, d =>
      if num * Nat.pow 10 (-(d - 1)).toNat < den * Nat.pow 10 (d - 1).toNat then
        digitsBelow num den fuel (d - 1)
      else d

/-- Whether the decimal `digits * 10 ^ place` reads back as the double: it lies between the two
halfway points around the value, ends included exactly for an even mantissa. -/
def readsBack (x : Dyadic) (digits : Nat) (place : Int) : Bool :=
  -- everything is measured in quarters of the last binary place
  let e := x.exponent - 2
  let num := (digits * Nat.pow 10 place.toNat) <<< (-e).toNat
  let den := Nat.pow 10 (-place).toNat <<< e.toNat
  let low := 4 * x.mantissa - (if x.mantissa = 1 <<< 52 && -1074 < x.exponent then 1 else 2)
  let high := 4 * x.mantissa + 2
  if x.mantissa % 2 = 0 then low * den ≤ num && num ≤ high * den
  else low * den < num && num < high * den

/-- The nearest of the two neighbours of the value on the grid of step `10 ^ place` that read back,
if one does. -/
def neighbour? (x : Dyadic) (place : Int) : Option Nat :=
  let num := x.numerator * Nat.pow 10 (-place).toNat
  let den := x.denominator * Nat.pow 10 place.toNat
  let q := num / den
  let r := num % den
  let below := readsBack x q place
  let above := r ≠ 0 && readsBack x (q + 1) place
  match below, above with
  | true, true => some (if 2 * r < den || (2 * r = den && q % 2 = 0) then q else q + 1)
  | true, false => some q
  | false, true => some (q + 1)
  | false, false => none

/-- The coarsest decimal grid with a point that reads back, tried from `count` digits on.  No digits
at all is a grid too: its least positive point is the power of ten just above the value. -/
def shortestFrom (x : Dyadic) (before : Int) : Nat → Nat → Nat × Int
  | 0, count => (x.numerator, before - count)
  | fuel + 1, count =>
    match neighbour? x (before - count) with
    | some digits => (digits, before - count)
    | none => shortestFrom x before fuel (count + 1)

/-- The fewest decimal digits that read back, with the place of the last one: the value is written
`digits * 10 ^ place`. -/
def shortest (x : Dyadic) : Nat × Int :=
  if x.mantissa = 0 then (0, 0)
  else
    let num := x.numerator
    let den := x.denominator
    let guess : Int := ((Nat.log2 num : Int) - (Nat.log2 den : Int)) * 3 / 10
    shortestFrom x (digitsBeforePoint num den 400 guess) 18 0

/-- `digits * 10 ^ place` without an exponent: zeros fill up to the point on either side. -/
def positional (digits : Nat) (place : Int) : String :=
  let text := (Nat.repr digits).toList
  if 0 ≤ place then String.ofList (text ++ List.replicate place.toNat '0')
  else
    let width := (-place).toNat
    let padded := List.replicate (width + 1 - text.length) '0' ++ text
    let whole := padded.take (padded.length - width)
    String.ofList (whole ++ '.' :: padded.drop (padded.length - width))

/-- The shortest text without an exponent: `1.5`, `1000`, `18446744073709552000`. -/
def render (x : Dyadic) : String :=
  let (digits, place) := x.shortest
  positional digits place

/-- The value with exactly `places` digits after the point, a half going to the even digit. -/
def fixed (x : Dyadic) (places : Nat) : String :=
  positional (roundDiv (x.numerator * Nat.pow 10 places) x.denominator) (-(places : Int))

end Dyadic

end FeedCapture
