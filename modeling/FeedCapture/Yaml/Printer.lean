import FeedCapture.Yaml.Value

/-!
# Writing YAML

A document as YAML text: maps and lists as blocks, one entry a line, and every string in the
simplest of four forms that reads back as the same string.  A string with a line feed is written as
a literal block; one that would read as something else without quotes, between single marks; all
others without quotes.  A form that cannot hold the string gives way to a stronger one, and double
marks can hold every string.

## Main definitions

* `Yaml.Limits.ofText` — which forms can hold a string
* `Yaml.scalar` — a string in its form
* `Yaml.print` — a document
-/

namespace FeedCapture.Yaml

/-! ## What a string allows -/

/-- The character can stand in a text as itself. -/
def isPrintable (c : Char) : Bool :=
  let n := c.toNat
  n = 0x0A || (0x20 ≤ n && n ≤ 0x7E) ||
    (0xA0 ≤ n && n ≠ 0xFEFF && n ≠ 0xFFFE && n ≠ 0xFFFF)

/-- The character separates words. -/
def isGap (c : Char) : Bool := isSpace c || isBreak c || c = '\x00'

/-- The text is over or goes on with a character that separates words. -/
def startsWithGap : List Char → Bool
  | [] => true
  | c :: _ => isGap c

/-- Which forms can hold a string. -/
structure Limits where
  plain : Bool
  singleQuoted : Bool
  block : Bool
deriving DecidableEq, Repr

namespace Limits

/-- The first character would start something other than a plain string. -/
def badStart : List Char → Bool
  | '-' :: '-' :: '-' :: _ => true
  | '.' :: '.' :: '.' :: _ => true
  | c :: rest =>
    c ∈ ['#', ',', '[', ']', '{', '}', '&', '*', '!', '|', '>', '\'', '"', '%', '@', '\x60'] ||
      (c ∈ ['?', ':', '-'] && startsWithGap rest)
  | [] => false

/-- A later character would end the string: a colon before a gap or a number sign after one. -/
def badLater (afterGap : Bool) : List Char → Bool
  | [] => false
  | c :: rest =>
    (c = ':' && startsWithGap rest) || (c = '#' && afterGap) || badLater (isGap c) rest

/-- Somewhere a character of the second kind follows one of the first. -/
def hasPair (first second : Char → Bool) : List Char → Bool
  | c :: d :: rest => (first c && second d) || hasPair first second (d :: rest)
  | _ => false

/-- The character satisfies `p` and is there. -/
def holds (p : Char → Bool) : Option Char → Bool
  | some c => p c
  | none => false

/-- What the string allows. -/
def ofText (text : List Char) : Limits :=
  let isBlankSpace : Char → Bool := fun c => c = ' '
  let hidden := text.any (fun c => !isPrintable c)
  let spaceBreak := hasPair isBlankSpace isBreak text
  let breakSpace := hasPair isBreak isBlankSpace text
  let edges := holds isBlankSpace text.head? || holds isBlankSpace text.getLast?
  let markers := badStart text ||
    match text with
    | [] => false
    | c :: rest => badLater (isGap c) rest
  { plain := !(hidden || edges || text.any isBreak || markers)
    singleQuoted := !(hidden || spaceBreak || breakSpace)
    block := !(hidden || spaceBreak || holds isBlankSpace text.getLast?) }

end Limits

/-! ## The forms -/

/-- Spaces. -/
def spaces (n : Nat) : List Char := List.replicate n ' '

/-- The digits of a number in base sixteen, with zeros in front up to the width. -/
def hexDigits (width n : Nat) : List Char :=
  let digits := (Nat.toDigits 16 n).map Char.toUpper
  List.replicate (width - digits.length) '0' ++ digits

/-- A character that cannot stand as itself between double marks. -/
def escape (c : Char) : List Char :=
  '\\' ::
    match c with
    | '\x00' => ['0']
    | '\x07' => ['a']
    | '\x08' => ['b']
    | '\t' => ['t']
    | '\n' => ['n']
    | '\x0b' => ['v']
    | '\x0c' => ['f']
    | '\r' => ['r']
    | '\x1b' => ['e']
    | '"' => ['"']
    | '\\' => ['\\']
    | '\u0085' => ['N']
    | '\u00a0' => ['_']
    | '\u2028' => ['L']
    | '\u2029' => ['P']
    | _ =>
      if c.toNat ≤ 0xFF then 'x' :: hexDigits 2 c.toNat
      else if c.toNat ≤ 0xFFFF then 'u' :: hexDigits 4 c.toNat
      else 'U' :: hexDigits 8 c.toNat

/-- The string between double marks. -/
def doubleQuoted (text : List Char) : List Char :=
  '"' :: text.flatMap (fun c =>
    if !isPrintable c || isBreak c || c = '"' || c = '\\' then escape c else [c]) ++ ['"']

/-- The inside of a string between single marks.  A mark is written twice, a line feed gets a second
one, and the line after a break is indented. -/
def singleQuotedBody (indent : Nat) (broken : Bool) : List Char → List Char
  | [] => if broken then spaces indent else []
  | c :: rest =>
    if isBreak c then
      (if !broken && c = '\n' then ['\n', c] else [c]) ++ singleQuotedBody indent true rest
    else
      (if broken then spaces indent else []) ++ (if c = '\'' then ['\'', '\''] else [c]) ++
        singleQuotedBody indent false rest

/-- The string between single marks. -/
def singleQuoted (indent : Nat) (text : List Char) : List Char :=
  '\'' :: singleQuotedBody indent false text ++ ['\'']

/-- The lines of a literal block; lines without a character are not indented. -/
def literalBody (indent : Nat) (broken : Bool) : List Char → List Char
  | [] => []
  | c :: rest =>
    (if broken && !isBreak c then spaces indent else []) ++ c :: literalBody indent (isBreak c) rest

/-- What the head of a literal block says about the breaks at its end. -/
def chomping (text : List Char) : List Char :=
  match text.reverse with
  | [] => ['-']
  | c :: rest =>
    if !isBreak c then ['-']
    else
      match rest with
      | [] => ['+']
      | d :: _ => if isBreak d then ['+'] else []

/-- The string as a literal block, up to the end of its last line. -/
def literal (indent : Nat) (text : List Char) : List Char :=
  let hint := if text.head? = some ' ' || Limits.holds isBreak text.head? then ['2'] else []
  '|' :: hint ++ chomping text ++ ['\n'] ++ literalBody indent true text ++
    (if Limits.holds isBreak text.getLast? then [] else ['\n'])

/-- Without quotes the string would read as something else. -/
def needsQuotes (text : List Char) : Bool :=
  text.isEmpty || isZeroPadded text ||
    match plainValue (String.ofList text) with
    | .text _ => false
    | _ => true

/-- A string in its form, up to the end of its line.  Further lines of it start `indent` columns
in. -/
def scalar (indent : Nat) (text : List Char) : List Char :=
  let limits := Limits.ofText text
  if text.contains '\n' then
    if limits.block then literal indent text else doubleQuoted text ++ ['\n']
  else if !needsQuotes text && limits.plain then text ++ ['\n']
  else if limits.singleQuoted then singleQuoted indent text ++ ['\n']
  else doubleQuoted text ++ ['\n']

/-! ## Documents -/

/-- A number with a point or an exponent; the values that are no numbers have names of their own. -/
def floatText : Real64 → String
  | .infinite negative => if negative then "-.inf" else ".inf"
  | .nan => ".nan"
  | x => x.renderScientific

mutual

/-- What follows a key or a hyphen, up to the end of the line or of the block.  The block stands
`indent` columns in; the items of a list under a key stand where the key does. -/
def printValue (indent : Nat) : Document → List Char
  | .null => " null\n".toList
  | .bool b => (if b then " true\n" else " false\n").toList
  | .int n => ' ' :: (toString n).toList ++ ['\n']
  | .minusZero => " -0\n".toList
  | .float x => ' ' :: (floatText x).toList ++ ['\n']
  | .text s => ' ' :: scalar (indent + 2) s.toList
  | .char c => ' ' :: scalar (indent + 2) [c]
  | .list [] => " []\n".toList
  | .list items => '\n' :: printItems indent items
  | .map [] => " {}\n".toList
  | .map entries => '\n' :: printEntries (indent + 2) entries

/-- The items of a list, each after a hyphen. -/
def printItems (indent : Nat) : List Document → List Char
  | [] => []
  | item :: rest => spaces indent ++ '-' :: printValue indent item ++ printItems indent rest

/-- The entries of a map, each on its line or above its block. -/
def printEntries (indent : Nat) : List (String × Document) → List Char
  | [] => []
  | (key, value) :: rest =>
    spaces indent ++ key.toList ++ ':' :: printValue indent value ++ printEntries indent rest

end

/-- A map as a YAML text. -/
def print (entries : List (String × Document)) : String := String.ofList (printEntries 0 entries)

end FeedCapture.Yaml
