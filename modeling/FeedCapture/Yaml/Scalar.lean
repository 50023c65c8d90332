import FeedCapture.Number.Digits
import FeedCapture.Yaml.Cursor

/-!
# Scalars in a YAML text

The five ways to write a string: without quotes, between single or double quotation marks, and as a
block that keeps or folds its lines.  Each reader starts at the first character of the scalar, and
gives the string and the position after it, or nothing when the text is malformed.

A line break inside a scalar without block is folded: one break becomes a space, and of several
breaks all but the first are kept.

## Main definitions

* `Yaml.plain?`, `Yaml.quoted?`, `Yaml.block?`
-/

namespace FeedCapture.Yaml

/-- How a scalar is written. -/
inductive ScalarStyle where
  | plain
  | singleQuoted
  | doubleQuoted
  | literal
  | folded
deriving DecidableEq, Repr

/-! ## The gap between two words -/

/-- The blank characters between two words: those on one line, or the line breaks. -/
structure Gap where
  /-- A line ended inside the gap. -/
  broken : Bool := false
  /-- The spaces and tabs before any line break. -/
  spaces : List Char := []
  /-- The first line break; none when it was escaped. -/
  firstBreak : List Char := []
  /-- The line breaks after the first one. -/
  moreBreaks : List Char := []

/-- What a gap contributes to the string. -/
def Gap.folded (g : Gap) : List Char :=
  if !g.broken then g.spaces
  else if g.firstBreak = ['\n'] then
    if g.moreBreaks.isEmpty then [' '] else g.moreBreaks
  else g.firstBreak ++ g.moreBreaks

/-- Reads blank characters into a gap.  Inside a plain scalar a tab must not stand before column
`indent` of a line. -/
def gap? (indent : Nat) : Nat → Gap → Cursor → Option (Gap × Cursor)
  | 0, _, _ => none
  | fuel + 1, g, c =>
    match c.head? with
    | none => some (g, c)
    | some ch =>
      if isSpace ch then
        if g.broken then
          if c.column < indent && ch = '\t' then none else gap? indent fuel g c.skip
        else gap? indent fuel { g with spaces := g.spaces ++ [ch] } c.skip
      else if isBreak ch then
        let (br, c) := c.readLine
        if g.broken then gap? indent fuel { g with moreBreaks := g.moreBreaks ++ br } c
        else gap? indent fuel { g with broken := true, spaces := [], firstBreak := br } c
      else some (g, c)

/-! ## Plain scalars -/

/-- Reads the characters of one word of a plain scalar, onto those already read in reverse.  In a
flow collection a colon right before a bracket or a comma is an error. -/
def plainWord? (inFlow : Bool) : List Char → Cursor → Nat → Option (List Char × Cursor)
  | _, _, 0 => none
  | read, c, fuel + 1 =>
    match c.rest with
    | [] => some (read, c)
    | ch :: rest =>
      if isSpace ch || isBreak ch then some (read, c)
      else if inFlow && ch = ':' &&
          (match rest.head? with
            | some next => next ∈ [',', '?', '[', ']', '{', '}']
            | none => false) then none
      else if (ch = ':' && atBlank rest) || (inFlow && ch ∈ [',', '[', ']', '{', '}']) then
        some (read, c)
      else plainWord? inFlow (ch :: read) c.skip fuel

/-- Reads words and gaps as long as the plain scalar goes on.  Gives the characters in reverse and
whether a line break was passed after the last word. -/
def plainFrom? (inFlow : Bool) (indent : Nat) :
    Nat → List Char → Gap → Cursor → Option (List Char × Bool × Cursor)
  | 0, _, _, _ => none
  | fuel + 1, read, g, c =>
    if c.atDocumentMarker || c.head? = some '#' then some (read, g.broken, c)
    else
      match plainWord? inFlow [] c (c.rest.length + 1) with
      | none => none
      | some (word, after) =>
        let (read, g) :=
          if word.isEmpty then (read, g) else (word ++ g.folded.reverse ++ read, {})
        match after.head? with
        | none => some (read, g.broken, after)
        | some ch =>
          if isSpace ch || isBreak ch then
            match gap? indent (after.rest.length + 1) g after with
            | none => none
            | some (g, after) =>
              if !inFlow && after.column < indent then some (read, g.broken, after)
              else plainFrom? inFlow indent fuel read g after
          else some (read, g.broken, after)

/-- Reads a plain scalar whose later lines must stand at column `indent` or further.  The flag says
that a line ended after the last word. -/
def plain? (inFlow : Bool) (indent : Nat) (c : Cursor) : Option (String × Bool × Cursor) :=
  (plainFrom? inFlow indent (c.rest.length + 2) [] {} c).map fun (read, broken, c) =>
    (String.ofList read.reverse, broken, c)

/-! ## Quoted scalars -/

/-- What a backslash and the text after it stand for, and how many characters that text has. -/
def escape? : List Char → Option (Char × Nat)
  | '0' :: _ => some ('\x00', 1)
  | 'a' :: _ => some ('\x07', 1)
  | 'b' :: _ => some ('\x08', 1)
  | 't' :: _ => some ('\t', 1)
  | '\t' :: _ => some ('\t', 1)
  | 'n' :: _ => some ('\n', 1)
  | 'v' :: _ => some ('\x0b', 1)
  | 'f' :: _ => some ('\x0c', 1)
  | 'r' :: _ => some ('\r', 1)
  | 'e' :: _ => some ('\x1b', 1)
  | ' ' :: _ => some (' ', 1)
  | '"' :: _ => some ('"', 1)
  | '/' :: _ => some ('/', 1)
  | '\\' :: _ => some ('\\', 1)
  | 'N' :: _ => some ('\u0085', 1)
  | '_' :: _ => some ('\u00a0', 1)
  | 'L' :: _ => some ('\u2028', 1)
  | 'P' :: _ => some ('\u2029', 1)
  | 'x' :: rest => coded 2 rest
  | 'u' :: rest => coded 4 rest
  | 'U' :: rest => coded 8 rest
  | _ => none
where
  /-- A character given by its number in `count` hexadecimal digits. -/
  coded (count : Nat) (rest : List Char) : Option (Char × Nat) :=
    ((Digits.hex? count rest).bind fun (n, _) => Digits.char? n).map fun c => (c, count + 1)

/-- Reads one word of a quoted scalar onto the characters read in reverse.  The flag says that the
word ended with an escaped line break, which has been passed. -/
def quotedWord? (single : Bool) : List Char → Cursor → Nat → Option (List Char × Bool × Cursor)
  | _, _, 0 => none
  | read, c, fuel + 1 =>
    match c.rest with
    | [] => some (read, false, c)
    | ch :: rest =>
      if isSpace ch || isBreak ch then some (read, false, c)
      else if single && ch = '\'' then
        if rest.head? = some '\'' then quotedWord? single ('\'' :: read) (c.skipMany 2) fuel
        else some (read, false, c)
      else if !single && ch = '"' then some (read, false, c)
      else if !single && ch = '\\' then
        if !rest.isEmpty && atBreak rest then some (read, true, c.skip.skipLine)
        else
          match escape? rest with
          | some (value, length) =>
            quotedWord? single (value :: read) (c.skipMany (length + 1)) fuel
          | none => none
      else quotedWord? single (ch :: read) c.skip fuel

/-- Reads words and gaps up to the closing quotation mark, and goes past it. -/
def quotedFrom? (single : Bool) : Nat → List Char → Cursor → Option (List Char × Cursor)
  | 0, _, _ => none
  | fuel + 1, read, c =>
    if c.atDocumentMarker || c.rest.isEmpty then none
    else
      match quotedWord? single read c (c.rest.length + 1) with
      | none => none
      | some (read, escapedBreak, c) =>
        if c.head? = some (if single then '\'' else '"') then some (read, c.skip)
        else
          match gap? 0 (c.rest.length + 1) { broken := escapedBreak } c with
          | none => none
          | some (g, c) => quotedFrom? single fuel (g.folded.reverse ++ read) c

/-- Reads a scalar between quotation marks. -/
def quoted? (single : Bool) (c : Cursor) : Option (String × Cursor) :=
  (quotedFrom? single (c.rest.length + 2) [] c.skip).map fun (read, c) =>
    (String.ofList read.reverse, c)

/-! ## Block scalars -/

/-- What becomes of the line breaks at the end of a block. -/
inductive Chomping where
  | strip
  | clip
  | keep
deriving DecidableEq, Repr

/-- Reads a chomping mark. -/
def chomping? : Option Char → Option Chomping
  | some '+' => some .keep
  | some '-' => some .strip
  | _ => none

/-- Reads the marks after the indicator of a block: chomping and indentation, in either order.  An
indentation of zero is refused. -/
def blockHeader? (c : Cursor) : Option (Chomping × Option Nat × Cursor) :=
  match chomping? c.head? with
  | some chomping =>
    let c := c.skip
    match c.head? with
    | some d =>
      if d = '0' then none
      else if d.isDigit then some (chomping, some (Digits.value [d]), c.skip)
      else some (chomping, none, c)
    | none => some (chomping, none, c)
  | none =>
    match c.head? with
    | some d =>
      if d = '0' then none
      else if d.isDigit then
        let c := c.skip
        match chomping? c.head? with
        | some chomping => some (chomping, some (Digits.value [d]), c.skip)
        | none => some (.clip, some (Digits.value [d]), c)
      else some (.clip, none, c)
    | none => some (.clip, none, c)

/-- Reads the empty lines before a line of a block, and the indentation.  While the indentation of
the block is not known (`none`), the widest indentation seen is kept.  A tab must not stand where
indentation is expected. -/
def blockBreaks? (indent : Option Nat) :
    Nat → Nat → List Char → Cursor → Option (Nat × List Char × Cursor)
  | 0, _, _, _ => none
  | fuel + 1, widest, breaks, c =>
    let c := match indent with
      | some n => c.skipMany ((c.rest.takeWhile (fun ch => ch = ' ')).take (n - c.column)).length
      | none => c.skipWhile fun ch => ch = ' '
    let widest := max widest c.column
    let short := match indent with
      | some n => c.column < n
      | none => true
    if short && c.head? = some '\t' then none
    else if !c.rest.isEmpty && atBreak c.rest then
      let (br, c) := c.readLine
      blockBreaks? indent fuel widest (breaks ++ br) c
    else some (widest, breaks, c)

/-- Reads the lines of a block whose indentation is known, onto the characters read in reverse.
`pendingBreak` is the break of the line before and `emptyLines` are the breaks of the empty lines
after it; `afterBlank` says that the line before started with a blank. -/
def blockLines? (folded : Bool) (indent : Nat) :
    Nat → List Char → List Char → List Char → Bool → Cursor →
      Option (List Char × List Char × List Char × Cursor)
  | 0, _, _, _, _, _ => none
  | fuel + 1, read, pendingBreak, emptyLines, afterBlank, c =>
    if c.column = indent && !c.rest.isEmpty then
      let startsBlank := match c.head? with
        | some ch => isSpace ch
        | none => false
      let joint :=
        if folded && pendingBreak = ['\n'] && !afterBlank && !startsBlank then
          if emptyLines.isEmpty then [' '] else []
        else pendingBreak
      let line := c.rest.takeWhile fun ch => !isBreak ch
      let read := line.reverse ++ emptyLines.reverse ++ joint.reverse ++ read
      let (br, c) := (c.skipMany line.length).readLine
      match blockBreaks? (some indent) (c.rest.length + 1) 0 [] c with
      | none => none
      | some (_, emptyLines, c) => blockLines? folded indent fuel read br emptyLines startsBlank c
    else some (read, pendingBreak, emptyLines, c)

/-- Reads a block scalar inside a collection that is indented by `parent` columns; `-1` stands for
the top of a document. -/
def block? (folded : Bool) (parent : Int) (c : Cursor) : Option (String × Cursor) :=
  match blockHeader? c.skip with
  | none => none
  | some (chomping, increment, c) =>
    let c := c.skipWhile isSpace
    let c := if c.head? = some '#' then c.skipWhile (fun ch => !isBreak ch) else c
    if !atBreak c.rest then none
    else
      let c := c.skipLine
      let known := increment.map fun n => (if 0 ≤ parent then parent.toNat + n else n)
      match blockBreaks? known (c.rest.length + 1) 0 [] c with
      | none => none
      | some (widest, emptyLines, c) =>
        let indent := match known with
          | some n => n
          | none => max (max widest (parent + 1).toNat) 1
        match blockLines? folded indent (c.rest.length + 2) [] [] emptyLines false c with
        | none => none
        | some (read, pendingBreak, emptyLines, c) =>
          let read := if chomping = .strip then read else pendingBreak.reverse ++ read
          let read := if chomping = .keep then emptyLines.reverse ++ read else read
          some (String.ofList read.reverse, c)

end FeedCapture.Yaml
