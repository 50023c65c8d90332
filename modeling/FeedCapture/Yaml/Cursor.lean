/-!
# A position in a YAML text

The rest of the text together with the line and column that have been reached.  Five characters end
a line; a carriage return and a line feed together end one line.

## Main definitions

* `Yaml.Cursor`, with `skip`, `skipLine` and `readLine`
* `Yaml.normalize?` — the text without its byte order mark, if all its characters are allowed
-/

namespace FeedCapture.Yaml

/-- What is left of the text, and where it starts. -/
structure Cursor where
  rest : List Char
  index : Nat := 0
  line : Nat := 0
  column : Nat := 0

/-- The character ends a line. -/
def isBreak (c : Char) : Bool :=
  c = '\n' || c = '\r' || c = '\u0085' || c = '\u2028' || c = '\u2029'

/-- The character is a space or a tab. -/
def isSpace (c : Char) : Bool := c = ' ' || c = '\t'

/-- The text is over or starts with a character that ends a line. -/
def atBreak : List Char → Bool
  | [] => true
  | c :: _ => isBreak c

/-- The text is over, or starts with a space, a tab or the end of a line. -/
def atBlank : List Char → Bool
  | [] => true
  | c :: _ => isSpace c || isBreak c

/-- A letter, a digit, a hyphen or an underscore, all in ASCII. -/
def isWordChar (c : Char) : Bool := c.isAlphanum || c = '-' || c = '_'

namespace Cursor

/-- The next character. -/
def head? (c : Cursor) : Option Char := c.rest.head?

/-- Goes past one character of the line. -/
def skip (c : Cursor) : Cursor :=
  { rest := c.rest.drop 1, index := c.index + 1, line := c.line, column := c.column + 1 }

/-- Goes past several characters of the line. -/
def skipMany (c : Cursor) (n : Nat) : Cursor :=
  { rest := c.rest.drop n, index := c.index + n, line := c.line, column := c.column + n }

/-- Goes past the end of the line and gives it in its usual form: a line feed stands for every kind
but the two separators beyond Latin. -/
def readLine (c : Cursor) : List Char × Cursor :=
  match c.rest with
  | '\r' :: '\n' :: rest =>
    (['\n'], { rest, index := c.index + 2, line := c.line + 1, column := 0 })
  | ch :: rest =>
    if isBreak ch then
      ([if ch = '\u2028' || ch = '\u2029' then ch else '\n'],
        { rest, index := c.index + 1, line := c.line + 1, column := 0 })
    else ([], c)
  | [] => ([], c)

/-- Goes past the end of the line. -/
def skipLine (c : Cursor) : Cursor := c.readLine.2

/-- Goes past the characters of the line that satisfy `p`. -/
def skipWhile (c : Cursor) (p : Char → Bool) : Cursor :=
  c.skipMany (c.rest.takeWhile p).length

/-- The line starts with a marker that begins or ends a document. -/
def atDocumentMarker (c : Cursor) : Bool :=
  c.column = 0 &&
    match c.rest with
    | '-' :: '-' :: '-' :: rest => atBlank rest
    | '.' :: '.' :: '.' :: rest => atBlank rest
    | _ => false

end Cursor

/-- The character may stand in a YAML text. -/
def isAllowed (c : Char) : Bool :=
  let n := c.toNat
  n = 0x09 || n = 0x0A || n = 0x0D || (0x20 ≤ n && n ≤ 0x7E) || n = 0x85 ||
    (0xA0 ≤ n && n ≤ 0xD7FF) || (0xE000 ≤ n && n ≤ 0xFFFD) || 0x10000 ≤ n

/-- The text without a byte order mark at its start, if every character is allowed. -/
def normalize? (text : List Char) : Option (List Char) :=
  let body := match text with
    | '\uFEFF' :: body => body
    | body => body
  if body.all isAllowed then some body else none

end FeedCapture.Yaml
