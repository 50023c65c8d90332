import FeedCapture.Document
import FeedCapture.Text.Blank

/-!
# Settings from the environment

A variable whose name starts with `TRACKFEED_`, in any case, gives a setting.  The rest of its name
is the way to the setting: two underscores, or a point, separate the keys.  Its value is a small
document: a truth value, a number, a list in square brackets, a map in braces, a quoted text, a
character between single marks, or plain text.

## Main definitions

* `Environment` — variables in the order in which they were first set
* `Config.keys?` — the way that the name of a variable describes
* `Config.valueOf` — the document that the value of a variable describes
* `Config.variableDocument` — all settings from the environment
-/

namespace FeedCapture

/-- Variables and their values; no name is there twice. -/
abbrev Environment := List (String × String)

namespace Environment

/-- Sets a variable; one that is set already keeps its place. -/
def set (env : Environment) (name value : String) : Environment :=
  if env.any (fun v => v.1 = name) then
    env.map fun v => if v.1 = name then (name, value) else v
  else env ++ [(name, value)]

/-- The variables of a block in which each entry, a name, an equals sign and a value, ends with a
NUL character. -/
def ofBlock (block : String) : Environment :=
  ((block.splitOn "\x00").filter fun entry => entry.contains '=').map fun entry =>
    (String.ofList (entry.toList.takeWhile (· ≠ '=')),
      String.ofList ((entry.toList.dropWhile (· ≠ '=')).drop 1))

end Environment

namespace Config

/-! ## Names -/

/-- What the names of variables start with. -/
def variablePrefix : String := "TRACKFEED_"

/-- The text after the prefix, which may be written in any case. -/
def withoutPrefix? (name : List Char) : Option (List Char) :=
  let n := variablePrefix.length
  if (name.take n).map Char.toUpper = variablePrefix.toList then some (name.drop n) else none

/-- Every two underscores become a point. -/
def pointed : List Char → List Char
  | '_' :: '_' :: rest => '.' :: pointed rest
  | c :: rest => c :: pointed rest
  | [] => []

/-- The pieces between the points. -/
def pieces : List Char → List (List Char)
  | [] => [[]]
  | c :: rest =>
    if c = '.' then [] :: pieces rest
    else
      match pieces rest with
      | [] => [[c]]
      | piece :: more => (c :: piece) :: more

/-- The way that the name of a variable describes, in lower case; none for a name without the prefix
or with an empty key. -/
def keys? (name : String) : Option (List String) :=
  match withoutPrefix? (Text.trim name.toList) with
  | none => none
  | some rest =>
    let keys := pieces (Text.trim (pointed rest))
    if keys.any List.isEmpty then none
    else some (keys.map fun key => String.ofList (key.map Char.toLower))

/-! ## Values -/

/-- The character is ASCII white space. -/
def isGap (c : Char) : Bool := c = ' ' || c = '\t' || c = '\n' || c = '\x0c' || c = '\r'

/-- The rest of the text after white space. -/
def skipGap (chars : List Char) : List Char := chars.dropWhile isGap

/-- The character cannot stand in plain text. -/
def isSeparator (c : Char) : Bool := c = ',' || c = '{' || c = '}' || c = '[' || c = ']'

/-- The character can stand in a key without quotes. -/
def isKeyChar (c : Char) : Bool := c.isAlphanum || c = '_' || c = '-'

/-- A whole number of 64 bits: without a sign, or with one and then within the signed range. -/
def integer? : List Char → Option Int
  | '-' :: digits =>
    ((Digits.decimal? digits).filter fun n => n ≤ 1 <<< 63).map fun n => -(n : Int)
  | '+' :: digits =>
    ((Digits.decimal? digits).filter fun n => n < UInt64.size).map fun n => (n : Int)
  | digits => ((Digits.decimal? digits).filter fun n => n < UInt64.size).map fun n => (n : Int)

/-- What plain text means: a double if it holds a point, a whole number, or itself. -/
def plain (chars : List Char) : Document :=
  let trimmed := Text.trim chars
  match if trimmed.contains '.' then Real64.parse? trimmed else none with
  | some x => .float x
  | none =>
    match integer? trimmed with
    | some n => .ofInteger trimmed n
    | none => .text (String.ofList trimmed)

/-- The character with the number that `count` hexadecimal digits give. -/
def hexChar? (count : Nat) (chars : List Char) : Option (Char × List Char) :=
  (Digits.hex? count chars).bind fun (n, rest) => (Digits.char? n).map fun c => (c, rest)

/-- What is between double marks, without the closing mark, and the text after it. -/
def quotedSpan : List Char → Option (List Char × List Char)
  | [] => none
  | '"' :: rest => some ([], rest)
  | '\\' :: c :: rest => (quotedSpan rest).map fun (body, rest) => ('\\' :: c :: body, rest)
  | c :: rest => (quotedSpan rest).map fun (body, rest) => (c :: body, rest)

/-- Replaces the escapes in the body of a quoted text.  Control characters but the tab are
refused. -/
def unescape? : Nat → List Char → Option (List Char)
  | 0, _ => none
  | _ + 1, [] => some []
  | fuel + 1, '\\' :: mark :: rest =>
    match mark with
    | '"' => (unescape? fuel rest).map ('"' :: ·)
    | '\\' => (unescape? fuel rest).map ('\\' :: ·)
    | 'b' => (unescape? fuel rest).map ('\x08' :: ·)
    | 'f' => (unescape? fuel rest).map ('\x0c' :: ·)
    | 'n' => (unescape? fuel rest).map ('\n' :: ·)
    | 'r' => (unescape? fuel rest).map ('\r' :: ·)
    | 't' => (unescape? fuel rest).map ('\t' :: ·)
    | 'u' => (hexChar? 4 rest).bind fun (c, rest) => (unescape? fuel rest).map (c :: ·)
    | 'U' => (hexChar? 8 rest).bind fun (c, rest) => (unescape? fuel rest).map (c :: ·)
    | _ => none
  | fuel + 1, c :: rest =>
    if c = '\\' || (c.toNat < 0x20 && c ≠ '\t') || c = '\x7f' then none
    else (unescape? fuel rest).map (c :: ·)

/-- Reads a quoted text after its opening mark. -/
def quoted? (chars : List Char) : Option (String × List Char) :=
  (quotedSpan chars).bind fun (body, rest) =>
    (unescape? (body.length + 1) body).map fun text => (String.ofList text, rest)

/-- Reads a key, with or without quotes. -/
def key? : List Char → Option (String × List Char)
  | '"' :: rest => quoted? rest
  | chars =>
    let key := chars.takeWhile isKeyChar
    if key.isEmpty then none else some (String.ofList key, chars.dropWhile isKeyChar)

mutual

/-- Reads a value with the white space around it. -/
def value? : Nat → List Char → Option (Document × List Char)
  | 0, _ => none
  | fuel + 1, chars =>
    let found : Option (Document × List Char) :=
      match skipGap chars with
      | 't' :: 'r' :: 'u' :: 'e' :: rest => some (.bool true, rest)
      | 'f' :: 'a' :: 'l' :: 's' :: 'e' :: rest => some (.bool false, rest)
      | '{' :: rest => entries? fuel [] rest
      | '[' :: rest => items? fuel [] rest
      | '"' :: rest => (quoted? rest).map fun (s, rest) => (.text s, rest)
      | '\'' :: c :: '\'' :: rest => some (.char c, rest)
      | '\'' :: _ => none
      | chars =>
        some (plain (chars.takeWhile fun c => !isSeparator c),
          chars.dropWhile fun c => !isSeparator c)
    found.map fun (d, rest) => (d, skipGap rest)

/-- Reads the items of a list up to its closing bracket, after those already read. -/
def items? : Nat → List Document → List Char → Option (Document × List Char)
  | 0, _, _ => none
  | fuel + 1, items, chars =>
    match chars with
    | ']' :: rest => some (.list items, rest)
    | _ =>
      match value? fuel chars with
      | some (d, ',' :: rest) => items? fuel (items ++ [d]) rest
      | some (d, ']' :: rest) => some (.list (items ++ [d]), rest)
      | _ => none

/-- Reads the entries of a map up to its closing brace, after those already read. -/
def entries? : Nat → List (String × Document) → List Char → Option (Document × List Char)
  | 0, _, _ => none
  | fuel + 1, entries, chars =>
    match chars with
    | '}' :: rest => some (.map entries, rest)
    | _ =>
      match (key? (skipGap chars)).map fun (key, rest) => (key, skipGap rest) with
      | some (key, '=' :: rest) =>
        match value? fuel rest with
        | some (d, ',' :: rest) => entries? fuel (entries ++ [(key, d)]) rest
        | some (d, '}' :: rest) => some (.map (entries ++ [(key, d)]), rest)
        | _ => none
      | _ => none

end

/-- What the value of a variable means; text that is not well-formed stands for itself. -/
def valueOf (value : String) : Document :=
  match value? (value.length + 1) value.toList with
  | some (d, []) => d
  | _ => .text value

/-- All settings from the environment; later variables win over earlier ones. -/
def variableDocument (env : Environment) : Document :=
  env.foldl (fun d v =>
    match keys? v.1 with
    | some keys => d.merge (Document.nest keys (valueOf v.2))
    | none => d) (.map [])

end Config

end FeedCapture
