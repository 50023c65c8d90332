import FeedCapture.Proofs.Config.Printing
import FeedCapture.Proofs.Number.Exactness
import Mathlib.Data.List.TakeWhile

/-!
# What is a size, and how many bytes it means

The form of sizes as they are written: a number and a unit, with white space around and between
them.  A text is a size exactly when it has this form.  Where the number is written with digits only
and has at most 53 bits, the size is the exact product of number and unit, as far as it fits.

## Main definitions

* `Text.Leads`, `Text.Trimmed` — the longest beginning of a kind, and a text without its margins
* `Size.units` — the units, and how many bytes each stands for
* `Size.Written` — a size as it is written, with its number and its unit

The main statements are `Size.exists_parse_iff` and `Size.parse_of_digits`.
-/

namespace FeedCapture

/-! ## Parts of a text -/

namespace Text

/-- `front` is the longest beginning of the text whose characters are all of a kind, and `rest` is
what follows it. -/
structure Leads (kind : Char → Bool) (text front rest : List Char) : Prop where
  parts : text = front ++ rest
  all : ∀ c ∈ front, kind c = true
  longest : ∀ c ∈ rest.head?, kind c = false

/-- `inner` is the text without the white space at its two ends. -/
structure Trimmed (text inner : List Char) : Prop where
  around : ∃ before after, text = before ++ inner ++ after ∧
    (∀ c ∈ before, isBlank c = true) ∧ ∀ c ∈ after, isBlank c = true
  first : ∀ c ∈ inner.head?, isBlank c = false
  last : ∀ c ∈ inner.getLast?, isBlank c = false

variable {kind : Char → Bool} {text front rest inner : List Char}

theorem leads_takeWhile (kind : Char → Bool) (text : List Char) :
    Leads kind text (text.takeWhile kind) (text.dropWhile kind) where
  parts := List.takeWhile_append_dropWhile.symm
  all c mem := List.mem_takeWhile_imp mem
  longest c mem := by
    have := List.head?_dropWhile_not kind text
    rwa [Option.mem_def.1 mem] at this

theorem dropWhile_of_longest (longest : ∀ c ∈ rest.head?, kind c = false) :
    rest.dropWhile kind = rest := by
  cases rest with
  | nil => rfl
  | cons c rest => exact List.dropWhile_cons_of_neg (by simp [longest c rfl])

theorem takeWhile_of_longest (longest : ∀ c ∈ rest.head?, kind c = false) :
    rest.takeWhile kind = [] := by
  cases rest with
  | nil => rfl
  | cons c rest => exact List.takeWhile_cons_of_neg (by simp [longest c rfl])

/-- The longest beginning of a kind is determined. -/
theorem leads_iff :
    Leads kind text front rest ↔ text.takeWhile kind = front ∧ text.dropWhile kind = rest := by
  constructor
  · rintro ⟨rfl, all, longest⟩
    rw [List.takeWhile_append_of_pos all, List.dropWhile_append_of_pos all,
      takeWhile_of_longest longest, dropWhile_of_longest longest, List.append_nil]
    exact ⟨rfl, rfl⟩
  · rintro ⟨rfl, rfl⟩
    exact leads_takeWhile kind text

theorem trimmed_trim (text : List Char) : Trimmed text (trim text) := by
  have front := leads_takeWhile isBlank text
  have back := leads_takeWhile isBlank (trimStart text).reverse
  have parts : trimStart text =
      trim text ++ ((trimStart text).reverse.takeWhile isBlank).reverse := by
    rw [trim, trimEnd, ← List.reverse_append, List.takeWhile_append_dropWhile,
      List.reverse_reverse]
  refine ⟨⟨text.takeWhile isBlank, ((trimStart text).reverse.takeWhile isBlank).reverse, ?_,
    front.all, fun c mem => ?_⟩, fun c mem => ?_, fun c mem => ?_⟩
  · rw [List.append_assoc, ← parts]
    exact front.parts
  · exact back.all c (List.mem_reverse.1 mem)
  · refine front.longest c ?_
    show c ∈ (trimStart text).head?
    rw [parts, List.head?_append, Option.mem_def.1 mem]
    rfl
  · refine back.longest c ?_
    rwa [trim, trimEnd, List.getLast?_reverse] at mem

/-- The text without its margins is determined. -/
theorem trim_eq_iff : trim text = inner ↔ Trimmed text inner := by
  refine ⟨fun eq => eq ▸ trimmed_trim text, ?_⟩
  rintro ⟨⟨before, after, rfl, blank, blank'⟩, first, last⟩
  have start : trimStart (before ++ inner ++ after) = (inner ++ after).dropWhile isBlank := by
    rw [trimStart, List.append_assoc, List.dropWhile_append_of_pos blank]
  rw [trim, start]
  cases inner with
  | nil =>
    rw [List.nil_append, List.dropWhile_eq_nil_iff.2 blank']
    rfl
  | cons c inner =>
    rw [List.cons_append, dropWhile_of_longest (by simpa using first c rfl), ← List.cons_append,
      trimEnd, List.reverse_append,
      List.dropWhile_append_of_pos fun c mem => blank' c (List.mem_reverse.1 mem),
      dropWhile_of_longest (by rwa [List.head?_reverse]), List.reverse_reverse]

end Text

namespace Size

open Text

/-! ## The form of sizes -/

/-- The units in lower case, and how many bytes each stands for. -/
def units : List (String × Nat) :=
  [("", 1), ("b", 1), ("kb", 1024), ("kib", 1024), ("mb", 1048576), ("mib", 1048576)]

/-- A text without its margins is the longest run of digits and points, which is the number, and the
unit in upper or lower case, with margins of its own. -/
def Written (text number unit : List Char) : Prop :=
  ∃ inner rest bare, Trimmed text inner ∧ Leads isNumberChar inner number rest ∧
    Trimmed rest bare ∧ unit = lowercase bare

variable {text number unit : List Char} {n m : Nat}

theorem written_iff :
    Written text number unit ↔
      (trim text).takeWhile isNumberChar = number ∧
        lowercase (trim ((trim text).dropWhile isNumberChar)) = unit := by
  constructor
  · rintro ⟨inner, rest, bare, trimmed, leads, trimmed', rfl⟩
    obtain rfl := trim_eq_iff.2 trimmed
    obtain ⟨rfl, rfl⟩ := leads_iff.1 leads
    obtain rfl := trim_eq_iff.2 trimmed'
    exact ⟨rfl, rfl⟩
  · rintro ⟨rfl, rfl⟩
    exact ⟨_, _, _, trimmed_trim text, leads_takeWhile _ _, trimmed_trim _, rfl⟩

/-- Every text has a number and a unit, if only empty ones. -/
theorem written_takeWhile (text : List Char) :
    Written text ((trim text).takeWhile isNumberChar)
      (lowercase (trim ((trim text).dropWhile isNumberChar))) :=
  written_iff.2 ⟨rfl, rfl⟩

theorem Written.isNumberChar (written : Written text number unit) :
    ∀ c ∈ number, isNumberChar c = true := by
  obtain ⟨inner, rest, bare, -, leads, -⟩ := written
  exact leads.all

theorem unitBytes?_eq_some_iff : unitBytes? unit = some m ↔ (String.ofList unit, m) ∈ units := by
  unfold unitBytes?
  generalize String.ofList unit = name
  split <;> grind [units]

/-! ## Numbers -/

theorem eq_point {c : Char} (char : isNumberChar c = true) (other : c.isDigit = false) :
    c = '.' := by
  simpa [isNumberChar, other] using char

theorem count_point_of_digits (digits : ∀ c ∈ number, c.isDigit = true) : number.count '.' = 0 :=
  List.count_eq_zero.2 fun mem => by cases digits '.' mem

/-- Among digits and points, having no point is being all digits. -/
theorem count_point_eq_zero_iff (chars : ∀ c ∈ number, isNumberChar c = true) :
    number.count '.' = 0 ↔ ∀ c ∈ number, c.isDigit = true := by
  refine ⟨fun none c mem => eq_true_of_ne_false fun other => ?_, count_point_of_digits⟩
  exact List.count_eq_zero.1 none (eq_point (chars c mem) other ▸ mem)

/-- A number without a point. -/
theorem decimalRatio?_digits (digits : ∀ c ∈ number, c.isDigit = true) :
    decimalRatio? number = if number.isEmpty then none else some (Digits.value number, 1) := by
  simp [decimalRatio?, List.takeWhile_eq_self_iff.2 digits, List.dropWhile_eq_nil_iff.2 digits]

/-- A number with a point, perhaps more than one. -/
theorem decimalRatio?_point {whole : List Char} (digits : ∀ c ∈ whole, c.isDigit = true)
    (places : List Char) :
    decimalRatio? (whole ++ '.' :: places) =
      if places.all Char.isDigit && !(whole.isEmpty && places.isEmpty) then
        some (Digits.value (whole ++ places), Nat.pow 10 places.length)
      else none := by
  obtain ⟨front, rest⟩ := Text.leads_iff.1
    (⟨rfl, digits, by simp⟩ : Leads Char.isDigit (whole ++ '.' :: places) whole ('.' :: places))
  simp [decimalRatio?, front, rest]

/-- Digits and points are a number exactly when there is a digit and at most one point. -/
theorem isSome_decimalRatio?_iff (chars : ∀ c ∈ number, isNumberChar c = true) :
    (decimalRatio? number).isSome = true ↔
      (∃ c ∈ number, c.isDigit = true) ∧ number.count '.' ≤ 1 := by
  obtain ⟨parts, digits, longest⟩ := leads_takeWhile Char.isDigit number
  generalize number.takeWhile Char.isDigit = whole at parts digits
  cases rest : number.dropWhile Char.isDigit with
  | nil =>
    obtain rfl : number = whole := by simpa [rest] using parts
    rw [decimalRatio?_digits digits, count_point_of_digits digits]
    cases number with
    | nil => simp
    | cons c number => simp [digits c List.mem_cons_self]
  | cons c places =>
    rw [rest] at parts longest
    subst parts
    obtain rfl : c = '.' := eq_point (chars c (by simp)) (longest c rfl)
    rw [decimalRatio?_point digits]
    have count : (whole ++ '.' :: places).count '.' ≤ 1 ↔ ∀ c ∈ places, c.isDigit = true := by
      rw [← count_point_eq_zero_iff fun c mem => chars c (List.mem_append_right _ (.tail _ mem))]
      simp [List.count_append, count_point_of_digits digits]
    rw [count]
    by_cases all : ∀ c ∈ places, c.isDigit = true
    · -- then there is a digit exactly when there is anything but the point
      have digit : (∃ c ∈ whole ++ '.' :: places, c.isDigit = true) ↔
          ¬ (whole = [] ∧ places = []) := by
        constructor
        · rintro ⟨c, mem, digit⟩ ⟨rfl, rfl⟩
          rw [List.mem_singleton.1 mem] at digit
          cases digit
        · intro some
          cases whole with
          | cons c whole => exact ⟨c, by simp, digits c List.mem_cons_self⟩
          | nil =>
            cases places with
            | cons c places => exact ⟨c, by simp, all c List.mem_cons_self⟩
            | nil => exact absurd ⟨rfl, rfl⟩ some
      rw [digit, List.all_eq_true.2 all, and_iff_left all]
      simp [imp_iff_not_or]
    · have none : places.all Char.isDigit = false := by simpa using all
      simp [none, all]

/-! ## Bytes -/

/-- **A whole number of 53 bits and a unit mean their product**, as far as it fits. -/
theorem bytes_whole (le : n ≤ 2 ^ 53) (k : Nat) :
    bytes (n, 1) (2 ^ k) = min (n * 2 ^ k) (2 ^ 64 - 1) := by
  have exact_ : ((Dyadic.ofRatio n 1).mulNat (2 ^ k)).floor = n * 2 ^ k :=
    (Dyadic.isWhole_mulNat_ofNat le k).floor
  rw [bytes, exact_]
  rfl

theorem exists_two_pow_of_mem_units {name : String} (known : (name, m) ∈ units) :
    ∃ k, m = 2 ^ k := by
  have table : ∀ p ∈ units, p.2 = 2 ^ 0 ∨ p.2 = 2 ^ 10 ∨ p.2 = 2 ^ 20 := by decide
  rcases table _ known with eq | eq | eq
  · exact ⟨0, eq⟩
  · exact ⟨10, eq⟩
  · exact ⟨20, eq⟩

/-- What a text means depends on its number and its unit. -/
theorem Written.parse_eq (written : Written text number unit) :
    parse text =
      match decimalRatio? number with
      | none =>
        .error (if number.isEmpty then .noNumber (String.ofList (trim text))
          else .badNumber (String.ofList (trim text)))
      | some ratio =>
        match unitBytes? unit with
        | none => .error (.unknownUnit (String.ofList unit))
        | some unit => .ok (bytes ratio unit) := by
  obtain ⟨rfl, rfl⟩ := written_iff.1 written
  rfl

/-- **What is a size.** -/
theorem exists_parse_iff (text : List Char) :
    (∃ n, parse text = .ok n) ↔
      ∃ number unit, Written text number unit ∧ (∃ c ∈ number, c.isDigit = true) ∧
        number.count '.' ≤ 1 ∧ ∃ m, (String.ofList unit, m) ∈ units := by
  have sound {number unit} (written : Written text number unit) :
      (∃ n, parse text = .ok n) ↔
        (decimalRatio? number).isSome = true ∧ (unitBytes? unit).isSome = true := by
    rw [written.parse_eq]
    cases decimalRatio? number <;> cases unitBytes? unit <;> simp
  constructor
  · intro read
    have written := written_takeWhile text
    obtain ⟨ratio, bytes_⟩ := (sound written).1 read
    obtain ⟨digit, points⟩ := (isSome_decimalRatio?_iff written.isNumberChar).1 ratio
    obtain ⟨m, known⟩ := Option.isSome_iff_exists.1 bytes_
    exact ⟨_, _, written, digit, points, m, unitBytes?_eq_some_iff.1 known⟩
  · rintro ⟨number, unit, written, digit, points, m, known⟩
    refine (sound written).2 ⟨?_, ?_⟩
    · exact (isSome_decimalRatio?_iff written.isNumberChar).2 ⟨digit, points⟩
    · exact Option.isSome_iff_exists.2 ⟨m, unitBytes?_eq_some_iff.2 known⟩

/-- **How many bytes a size means**, for a number in digits. -/
theorem parse_of_digits (written : Written text number unit) (some : number ≠ [])
    (digits : ∀ c ∈ number, c.isDigit = true) (known : (String.ofList unit, m) ∈ units)
    (le : Nat.ofDigitChars 10 number 0 ≤ 2 ^ 53) :
    parse text = .ok (min (Nat.ofDigitChars 10 number 0 * m) (2 ^ 64 - 1)) := by
  have ratio : decimalRatio? number = Option.some (Nat.ofDigitChars 10 number 0, 1) := by
    rw [decimalRatio?_digits digits, if_neg (by simpa using some)]
    rfl
  obtain ⟨k, rfl⟩ := exists_two_pow_of_mem_units known
  rw [written.parse_eq, ratio, unitBytes?_eq_some_iff.2 known]
  exact congrArg Except.ok (bytes_whole le k)

/-! ## Numbers given as text -/

theorem isBlank_of_isDigit {c : Char} (digit : c.isDigit = true) : isBlank c = false := by
  have bounds : 48 ≤ c.toNat ∧ c.toNat ≤ 57 := by
    simpa [Char.isDigit, UInt32.le_iff_toNat_le] using digit
  simp [isBlank]
  omega

/-- Digits alone are a number without a unit. -/
theorem written_of_digits (digits : ∀ c ∈ number, c.isDigit = true) : Written number number [] := by
  have chars : ∀ c ∈ number, isNumberChar c = true := fun c mem => by
    simp [isNumberChar, digits c mem]
  refine ⟨number, [], [], ⟨⟨[], [], by simp⟩, fun c mem => ?_, fun c mem => ?_⟩,
    ⟨by simp, chars, by simp⟩, trimmed_trim [], rfl⟩
  · exact isBlank_of_isDigit (digits c (List.mem_of_mem_head? mem))
  · exact isBlank_of_isDigit (digits c (List.mem_of_mem_getLast? mem))

/-- A number as it is written, with zeros in front. -/
def numeral (zeros n : Nat) : List Char := List.replicate zeros '0' ++ (Nat.repr n).toList

theorem numeral_eq (zeros n : Nat) :
    numeral zeros n = List.replicate zeros '0' ++ Nat.toDigits 10 n := by
  rw [numeral, Nat.repr_eq_ofList_toDigits, String.toList_ofList]

theorem isDigit_of_mem_numeral (zeros n : Nat) : ∀ c ∈ numeral zeros n, c.isDigit = true := by
  intro c mem
  rw [numeral_eq] at mem
  rcases List.mem_append.1 mem with zero | digit
  · rw [List.eq_of_mem_replicate zero]
    rfl
  · exact Nat.isDigit_of_mem_toDigits (by decide) (by decide) digit

theorem ofDigitChars_numeral (zeros n : Nat) : Nat.ofDigitChars 10 (numeral zeros n) 0 = n := by
  rw [numeral_eq, Nat.ofDigitChars_append, Nat.ofDigitChars_replicate_zero]
  simp [Nat.ofDigitChars_ten_toDigits]

theorem size_numeral (le : n ≤ 2 ^ 53) (zeros : Nat) :
    Config.size (.text (String.ofList (numeral zeros n))) = .ok n := by
  have digits := isDigit_of_mem_numeral zeros n
  have some : numeral zeros n ≠ [] := by simp [numeral_eq]
  have value := ofDigitChars_numeral zeros n
  have read := parse_of_digits (written_of_digits digits) some digits
    (by decide : (String.ofList [], 1) ∈ units) (value.symm ▸ le)
  rw [value, Nat.mul_one, Nat.min_eq_left (by omega)] at read
  simp only [Config.size, String.toList_ofList, read]

/-- **What a size is, and what it means.**  A text is a size exactly when, between its margins, the
longest run of digits and points has a digit and at most one point, and what follows it is, without
margins and in lower case, one of the units.  Where the number is written in digits and is at most
`2 ^ 53`, the size is the product of number and unit, or the largest number of 64 bits if that is
smaller.  So such a number means the same whether it is given as a number or as text. -/
theorem meaning_of_written :
    (∀ text : String, (∃ n, parse text.toList = .ok n) ↔
      ∃ number unit, Written text.toList number unit ∧ (∃ c ∈ number, c.isDigit = true) ∧
        number.count '.' ≤ 1 ∧ ∃ m, (String.ofList unit, m) ∈ units) ∧
    (∀ (text : String) (number unit : List Char) (m : Nat), Written text.toList number unit →
      number ≠ [] → (∀ c ∈ number, c.isDigit = true) → (String.ofList unit, m) ∈ units →
      Nat.ofDigitChars 10 number 0 ≤ 2 ^ 53 →
        parse text.toList = .ok (min (Nat.ofDigitChars 10 number 0 * m) (2 ^ 64 - 1))) ∧
    ∀ n : Nat, n ≤ 2 ^ 53 → Config.size (.int n) = .ok n ∧
      ∀ zeros, Config.size (.text (String.ofList (numeral zeros n))) = .ok n := by
  refine ⟨fun text => exists_parse_iff _, fun text number unit m written some digits known le => ?_,
    fun n le => ⟨?_, size_numeral le⟩⟩
  · exact parse_of_digits written some digits known le
  · have size : UInt64.size = 2 ^ 64 := rfl
    exact Config.size_int (by omega)

/-- The largest number of the kind, with zeros in front, margins and a unit in mixed case, is more
mebibytes than 64 bits hold. -/
theorem meaning_of_written_cut :
    Written " 009007199254740992 MiB\n".toList "009007199254740992".toList "mib".toList ∧
      parse " 009007199254740992 MiB\n".toList = .ok (2 ^ 64 - 1) ∧
      Config.size (.text (String.ofList (numeral 2 9007199254740992))) = .ok 9007199254740992 := by
  have written : Written " 009007199254740992 MiB\n".toList "009007199254740992".toList
      "mib".toList :=
    written_iff.2 ⟨by decide, by decide⟩
  obtain ⟨-, exact_, same⟩ := meaning_of_written
  have number : Nat.ofDigitChars 10 "009007199254740992".toList 0 = 9007199254740992 := by decide
  have digits : ∀ c ∈ "009007199254740992".toList, c.isDigit = true :=
    List.all_eq_true.1 (by decide)
  have read := exact_ _ _ _ 1048576 written (by decide) digits (by decide)
    (number.trans_le (by decide))
  rw [number] at read
  exact ⟨written, read, (same 9007199254740992 (by decide)).2 2⟩

end Size

end FeedCapture
