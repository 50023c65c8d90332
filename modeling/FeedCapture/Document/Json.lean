import FeedCapture.Document

/-!
# Documents as JSON text

Reading accepts JSON text; a number without point and exponent that fits 64 bits is a whole number,
every other number is a double.  Printing writes maps in the order of their entries, without spaces.

## Main definitions

* `Document.parseJson?`
* `Document.toJson`
-/

namespace FeedCapture.Document

/-! ## Reading -/

/-- The rest of the text after the white space that may stand between tokens. -/
def skipSpace (chars : List Char) : List Char :=
  chars.dropWhile fun c => c = ' ' || c = '\n' || c = '\r' || c = '\t'

/-- The character that two surrogates stand for. -/
def surrogatePair (high low : Nat) : Char :=
  Char.ofNat (0x10000 + (high - 0xD800) * 0x400 + (low - 0xDC00))

/-- Reads the characters of a string up to its closing quotation mark. -/
def stringBody : Nat → List Char → List Char → Option (List Char × List Char)
  | 0, _, _ => none
  | fuel + 1, read, chars =>
    match chars with
    | [] => none
    | '"' :: rest => some (read.reverse, rest)
    | '\\' :: 'u' :: rest =>
      match Digits.hex? 4 rest with
      | none => none
      | some (n, rest) =>
        if 0xD800 ≤ n ∧ n < 0xDC00 then
          match rest with
          | '\\' :: 'u' :: after =>
            match Digits.hex? 4 after with
            | some (low, after) =>
              if 0xDC00 ≤ low ∧ low < 0xE000 then
                stringBody fuel (surrogatePair n low :: read) after
              else stringBody fuel ('\uFFFD' :: read) rest
            | none => none
          | _ => stringBody fuel ('\uFFFD' :: read) rest
        else if 0xDC00 ≤ n ∧ n < 0xE000 then stringBody fuel ('\uFFFD' :: read) rest
        else stringBody fuel (Char.ofNat n :: read) rest
    | '\\' :: c :: rest =>
      match c with
      | '"' => stringBody fuel ('"' :: read) rest
      | '\\' => stringBody fuel ('\\' :: read) rest
      | '/' => stringBody fuel ('/' :: read) rest
      | 'b' => stringBody fuel ('\x08' :: read) rest
      | 'f' => stringBody fuel ('\x0c' :: read) rest
      | 'n' => stringBody fuel ('\n' :: read) rest
      | 'r' => stringBody fuel ('\r' :: read) rest
      | 't' => stringBody fuel ('\t' :: read) rest
      | _ => none
    | c :: rest => stringBody fuel (c :: read) rest

/-- The value of a number: whole if it has neither point nor exponent and fits 64 bits. -/
def number? (chars : List Char) : Option Document :=
  let digits := match chars with
    | '-' :: digits => digits
    | digits => digits
  if digits.all Char.isDigit && !digits.isEmpty then
    let n : Int := Digits.value digits
    if chars.head? = some '-' then
      if n = 0 || -Int64.minValue.toInt < n then (Real64.parse? chars).map .float
      else some (.int (-n))
    else if n < (UInt64.size : Int) then some (.int n)
    else (Real64.parse? chars).map .float
  else (Real64.parse? chars).map .float

/-- The characters that numbers are made of. -/
def isNumberChar (c : Char) : Bool :=
  c.isDigit || c = '-' || c = '+' || c = '.' || c = 'e' || c = 'E'

mutual

/-- Reads one value. -/
def value? : Nat → List Char → Option (Document × List Char)
  | 0, _ => none
  | fuel + 1, chars =>
    match skipSpace chars with
    | 'n' :: 'u' :: 'l' :: 'l' :: rest => some (.null, rest)
    | 't' :: 'r' :: 'u' :: 'e' :: rest => some (.bool true, rest)
    | 'f' :: 'a' :: 'l' :: 's' :: 'e' :: rest => some (.bool false, rest)
    | '"' :: rest =>
      (stringBody fuel [] rest).map fun (s, rest) => (.text (String.ofList s), rest)
    | '[' :: rest =>
      match skipSpace rest with
      | ']' :: rest => some (.list [], rest)
      | _ => items? fuel [] rest
    | '{' :: rest =>
      match skipSpace rest with
      | '}' :: rest => some (.map [], rest)
      | _ => entries? fuel [] rest
    | chars =>
      (number? (chars.takeWhile isNumberChar)).map fun d => (d, chars.dropWhile isNumberChar)

/-- Reads the items of a list, of which some are read already. -/
def items? : Nat → List Document → List Char → Option (Document × List Char)
  | 0, _, _ => none
  | fuel + 1, read, chars =>
    match value? fuel chars with
    | none => none
    | some (item, rest) =>
      match skipSpace rest with
      | ',' :: rest => items? fuel (item :: read) rest
      | ']' :: rest => some (.list (item :: read).reverse, rest)
      | _ => none

/-- Reads the entries of a map, of which some are read already. -/
def entries? : Nat → List (String × Document) → List Char → Option (Document × List Char)
  | 0, _, _ => none
  | fuel + 1, read, chars =>
    match skipSpace chars with
    | '"' :: rest =>
      match stringBody fuel [] rest with
      | none => none
      | some (key, rest) =>
        match skipSpace rest with
        | ':' :: rest =>
          match value? fuel rest with
          | none => none
          | some (item, rest) =>
            let read := (String.ofList key, item) :: read
            match skipSpace rest with
            | ',' :: rest => entries? fuel read rest
            | '}' :: rest => some (.map read.reverse, rest)
            | _ => none
        | _ => none
    | _ => none

end

/-- Reads a text that holds one JSON value.  Every character takes at most two steps. -/
def parseJson? (source : String) : Option Document :=
  let chars := source.toList
  match value? (2 * chars.length + 2) chars with
  | some (d, rest) => if (skipSpace rest).isEmpty then some d else none
  | none => none

/-! ## Printing -/

/-- One character inside quotation marks. -/
def escapeJson (c : Char) : List Char :=
  if c = '"' then ['\\', '"']
  else if c = '\\' then ['\\', '\\']
  else if c = '\n' then ['\\', 'n']
  else if c = '\r' then ['\\', 'r']
  else if c = '\t' then ['\\', 't']
  else if c = '\x08' then ['\\', 'b']
  else if c = '\x0c' then ['\\', 'f']
  else if c.toNat < 32 then
    ['\\', 'u', '0', '0', Nat.digitChar (c.toNat / 16), Nat.digitChar (c.toNat % 16)]
  else [c]

/-- A string between quotation marks. -/
def quoteJson (s : String) : String :=
  String.ofList ('"' :: s.toList.flatMap escapeJson ++ ['"'])

/-- The text of a double; one that is not finite has none and is written `null`. -/
def floatJson (x : Real64) : String := if x.isFinite then x.renderScientific else "null"

mutual

/-- The JSON text of a document. -/
def toJson : Document → String
  | .null => "null"
  | .bool b => if b then "true" else "false"
  | .int n => toString n
  | .minusZero => "-0"
  | .float x => floatJson x
  | .text s => quoteJson s
  | .char c => quoteJson (String.ofList [c])
  | .list items => "[" ++ ",".intercalate (toJsonItems items) ++ "]"
  | .map entries => "\x7b" ++ ",".intercalate (toJsonEntries entries) ++ "\x7d"

/-- The texts of the items of a list. -/
def toJsonItems : List Document → List String
  | [] => []
  | d :: rest => toJson d :: toJsonItems rest

/-- The texts of the entries of a map. -/
def toJsonEntries : List (String × Document) → List String
  | [] => []
  | (key, d) :: rest => (quoteJson key ++ ":" ++ toJson d) :: toJsonEntries rest

end

end FeedCapture.Document
