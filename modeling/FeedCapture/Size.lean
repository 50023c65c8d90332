import FeedCapture.Number.Binary64
import FeedCapture.Number.Digits
import FeedCapture.Text.Blank
import FeedCapture.Text.Lowercase

/-!
# Sizes written as text

A size is a decimal number and a unit: bytes, kibibytes or mebibytes.  The number may have one
point; it is read as a double, multiplied, and cut to a whole number of bytes that fits 64 bits.

## Main definitions

* `Size.parse` — the number of bytes that a text means
* `Size.Malformed` — why a text means none
-/

namespace FeedCapture.Size

/-- The largest size, and the size of everything beyond it. -/
def max : Nat := UInt64.size - 1

/-- Why a text is no size. -/
inductive Malformed where
  /-- There is no number before the unit. -/
  | noNumber (text : String)
  /-- What stands before the unit is not a number. -/
  | badNumber (text : String)
  /-- The unit, in lower case, is not known. -/
  | unknownUnit (unit : String)
deriving DecidableEq, Repr

/-- The wording of each cause. -/
def Malformed.message : Malformed → String
  | .noNumber text => "invalid size '" ++ text ++ "': cannot parse float from empty string"
  | .badNumber text => "invalid size '" ++ text ++ "': invalid float literal"
  | .unknownUnit unit => "unknown size unit '" ++ unit ++ "'"

/-- The characters that a number is made of. -/
def isNumberChar (c : Char) : Bool := c.isDigit || c = '.'

/-- A decimal number as a ratio: all its digits over ten to the number of places.  There must be a
digit, and at most one point. -/
def decimalRatio? (number : List Char) : Option (Nat × Nat) :=
  let whole := number.takeWhile Char.isDigit
  match number.dropWhile Char.isDigit with
  | [] => if whole.isEmpty then none else some (Digits.value whole, 1)
  | _ :: places =>
    if places.all Char.isDigit && !(whole.isEmpty && places.isEmpty) then
      some (Digits.value (whole ++ places), Nat.pow 10 places.length)
    else none

/-- How many bytes a unit stands for. -/
def unitBytes? (unit : List Char) : Option Nat :=
  match String.ofList unit with
  | "" | "b" => some 1
  | "kb" | "kib" => some 1024
  | "mb" | "mib" => some (1024 * 1024)
  | _ => none

/-- The double nearest to the ratio, times the unit, cut to a whole number of at most 64 bits. -/
def bytes (ratio : Nat × Nat) (unit : Nat) : Nat :=
  min ((Dyadic.ofRatio ratio.1 ratio.2).mulNat unit).floor max

/-- The number of bytes that a text means.  White space around the text, between number and unit,
and the case of the unit do not matter.  A bad number is reported before a bad unit. -/
def parse (text : List Char) : Except Malformed Nat :=
  let trimmed := Text.trim text
  let number := trimmed.takeWhile isNumberChar
  let unit := Text.lowercase (Text.trim (trimmed.dropWhile isNumberChar))
  match decimalRatio? number with
  | none =>
    .error (if number.isEmpty then .noNumber (String.ofList trimmed)
      else .badNumber (String.ofList trimmed))
  | some ratio =>
    match unitBytes? unit with
    | none => .error (.unknownUnit (String.ofList unit))
    | some unit => .ok (bytes ratio unit)

end FeedCapture.Size
