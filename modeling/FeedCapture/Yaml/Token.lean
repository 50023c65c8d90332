import FeedCapture.Yaml.Scalar

/-!
# The tokens of a YAML text

A YAML text is a sequence of tokens.  Block structure is shown by indentation: a line that is
indented further opens a collection, and one that is indented less closes those that it leaves.
A key of a mapping is recognised only when its colon is met, at most 1024 characters later on the
same line; then the tokens that open the key, and possibly the mapping, are put before it.

## Main definitions

* `Yaml.Token`
* `Yaml.Scan` — a scan that has gone part of the way
* `Yaml.Token.ofText?` — the tokens of a text
-/

namespace FeedCapture.Yaml

/-- A token. -/
inductive Token where
  | versionDirective (major minor : Nat)
  | tagDirective (handle address : String)
  | documentStart
  | documentEnd
  | streamEnd
  | blockSequenceStart
  | blockMappingStart
  | blockEnd
  | flowSequenceStart
  | flowSequenceEnd
  | flowMappingStart
  | flowMappingEnd
  | blockEntry
  | flowEntry
  | key
  | value
  | alias (name : String)
  | anchor (name : String)
  | tag (handle suffix : String)
  | scalar (value : String) (style : ScalarStyle)
deriving DecidableEq, Repr

/-- A place where a key may have begun. -/
structure KeyCandidate where
  /-- Nothing but a key can stand there. -/
  required : Bool
  /-- The number of tokens before it. -/
  position : Nat
  index : Nat
  line : Nat
  column : Nat

/-- A scan that has gone part of the way. -/
structure Scan where
  cursor : Cursor
  tokens : Array Token := #[]
  /-- The column of the innermost block collection; `-1` outside of all. -/
  indent : Int := -1
  /-- The columns of the collections around it. -/
  outerIndents : List Int := []
  /-- A key may begin here. -/
  keyAllowed : Bool := true
  /-- Where the key that is being read may have begun, innermost flow collection first.  There is
  one entry more than flow collections are open. -/
  candidates : List (Option KeyCandidate) := [none]

namespace Scan

/-- The scan is inside brackets. -/
def inFlow (s : Scan) : Bool := 1 < s.candidates.length

/-- Adds a token at the end. -/
def emit (s : Scan) (t : Token) : Scan := { s with tokens := s.tokens.push t }

/-- Adds a token, and goes past `n` characters. -/
def emitSkip (s : Scan) (t : Token) (n : Nat) : Scan :=
  { s.emit t with cursor := s.cursor.skipMany n }

/-- Puts a token before the one at `position`. -/
def insertAt (s : Scan) (position : Nat) (t : Token) : Scan :=
  { s with
    tokens := (s.tokens.toList.take position ++ t :: s.tokens.toList.drop position).toArray }

/-- Gives up the candidate of the current level.  A required one must not be given up. -/
def dropCandidate? (s : Scan) : Option Scan :=
  match s.candidates with
  | some candidate :: outer =>
    if candidate.required then none else some { s with candidates := none :: outer }
  | _ => some s

/-- A key may begin at the cursor: remembers the place. -/
def saveCandidate? (s : Scan) : Option Scan :=
  if s.keyAllowed then
    s.dropCandidate?.map fun s =>
      { s with
        candidates := some
          { required := !s.inFlow && s.indent = s.cursor.column
            position := s.tokens.size
            index := s.cursor.index
            line := s.cursor.line
            column := s.cursor.column } :: s.candidates.drop 1 }
  else some s

/-- Opens a block collection if the column is further right than the innermost one.  Its token goes
before the one at `position`. -/
def roll (s : Scan) (column : Nat) (position : Nat) (t : Token) : Scan :=
  if !s.inFlow && s.indent < column then
    { s.insertAt position t with
      indent := column
      outerIndents := s.indent :: s.outerIndents }
  else s

/-- Closes the block collections that are further right than the column. -/
def unroll (s : Scan) (column : Int) : Scan :=
  if s.inFlow then s
  else go s.outerIndents s
where
  /-- Closes one collection after the other, outwards. -/
  go : List Int → Scan → Scan
    | [], s => s
    | outer :: rest, s =>
      if column < s.indent then
        go rest { s.emit .blockEnd with indent := outer, outerIndents := rest }
      else s

/-! ## Blank space and comments -/

/-- Goes to the next token: past spaces, comments and line breaks.  Tabs are passed only where no
key can begin.  A new line outside of brackets lets a key begin. -/
def toNextToken : Nat → Scan → Scan
  | 0, s => s
  | fuel + 1, s =>
    let tabs := s.inFlow || !s.keyAllowed
    let c := s.cursor.skipWhile fun ch => ch = ' ' || (tabs && ch = '\t')
    let c := if c.head? = some '#' then c.skipWhile fun ch => !isBreak ch else c
    if !c.rest.isEmpty && atBreak c.rest then
      toNextToken fuel
        { s with cursor := c.skipLine, keyAllowed := s.keyAllowed || !s.inFlow }
    else { s with cursor := c }

/-! ## Directives -/

/-- A run of at most nine digits at the start of a text. -/
def versionNumber? (text : List Char) : Option Nat :=
  let digits := text.takeWhile Char.isDigit
  if 9 < digits.length then none else Digits.decimal? digits

/-- Reads the two numbers of a version. -/
def version? (c : Cursor) : Option (Token × Cursor) :=
  let c := c.skipWhile isSpace
  match versionNumber? c.rest with
  | none => none
  | some major =>
    let c := c.skipWhile Char.isDigit
    if c.head? ≠ some '.' then none
    else
      let c := c.skip
      match versionNumber? c.rest with
      | none => none
      | some minor => some (.versionDirective major minor, c.skipWhile Char.isDigit)

/-- Reads the handle of a tag: an exclamation mark, and possibly a word and another one.  In a
directive nothing else is a handle. -/
def tagHandle? (directive : Bool) (c : Cursor) : Option (String × Cursor) :=
  if c.head? ≠ some '!' then none
  else
    let word := c.rest.tail.takeWhile isWordChar
    let after := c.skipMany (word.length + 1)
    if after.head? = some '!' then
      some (String.ofList ('!' :: word ++ ['!']), after.skip)
    else if directive && !word.isEmpty then none
    else some (String.ofList ('!' :: word), after)

/-- The characters of a tag; some of them may stand only between angle brackets or in a
directive. -/
def isTagChar (wide : Bool) (c : Char) : Bool :=
  isWordChar c ||
    c ∈ [';', '/', '?', ':', '@', '&', '=', '+', '$', '.', '%', '!', '~', '*', '\'', '(', ')'] ||
    (wide && c ∈ [',', '[', ']'])

/-- The number of bytes of an encoded character, by its first byte. -/
def encodedLength? (first : Nat) : Option Nat :=
  if first < 0x80 then some 1
  else if first / 0x20 = 0x06 then some 2
  else if first / 0x10 = 0x0E then some 3
  else if first / 0x08 = 0x1E then some 4
  else none

/-- Reads `count` further bytes, each written with a percent sign, onto the value so far. -/
def percentTail? : Nat → Nat → List Char → Option (Nat × List Char)
  | 0, value, rest => some (value, rest)
  | count + 1, value, rest =>
    match rest with
    | '%' :: digits =>
      match Digits.hex? 2 digits with
      | some (byte, rest) =>
        if byte / 0x40 = 2 then percentTail? count (value * 64 + byte % 64) rest else none
      | none => none
    | _ => none

/-- Reads a character that is written as bytes with percent signs. -/
def percentChar? (text : List Char) : Option (Char × List Char) :=
  match Digits.hex? 2 text with
  | none => none
  | some (first, rest) =>
    match encodedLength? first with
    | none => none
    | some length =>
      let lead := if length = 1 then first else first % (1 <<< (7 - length))
      match percentTail? (length - 1) lead rest with
      | some (n, rest) => (Digits.char? n).map fun c => (c, rest)
      | none => none

/-- Reads the characters of a tag. -/
def tagText? (wide : Bool) : Nat → List Char → List Char → Option (List Char × List Char)
  | 0, _, _ => none
  | fuel + 1, read, text =>
    match text with
    | [] => some (read.reverse, [])
    | '%' :: rest =>
      match percentChar? rest with
      | some (c, rest) => tagText? wide fuel (c :: read) rest
      | none => none
    | c :: rest =>
      if isTagChar wide c then tagText? wide fuel (c :: read) rest else some (read.reverse, text)

/-- Reads the characters of a tag at the cursor. -/
def tagTextAt? (wide : Bool) (c : Cursor) : Option (String × Cursor) :=
  (tagText? wide (c.rest.length + 1) [] c.rest).map fun (text, rest) =>
    (String.ofList text, c.skipMany (c.rest.length - rest.length))

/-- Reads the two parts of a tag directive. -/
def tagDirective? (c : Cursor) : Option (Token × Cursor) :=
  let c := c.skipWhile isSpace
  match tagHandle? true c with
  | none => none
  | some (handle, c) =>
    if !(match c.head? with
      | some ch => isSpace ch
      | none => false) then none
    else
      match tagTextAt? true (c.skipWhile isSpace) with
      | some (address, c) =>
        if address.isEmpty || !atBlank c.rest then none else some (.tagDirective handle address, c)
      | none => none

/-- Reads a directive and goes past its line. -/
def directive? (c : Cursor) : Option (Token × Cursor) :=
  let c := c.skip
  let name := c.rest.takeWhile isWordChar
  let c := c.skipMany name.length
  if name.isEmpty || !atBlank c.rest then none
  else
    let read := match String.ofList name with
      | "YAML" => version? c
      | "TAG" => tagDirective? c
      | _ => none
    match read with
    | none => none
    | some (t, c) =>
      let c := c.skipWhile isSpace
      let c := if c.head? = some '#' then c.skipWhile fun ch => !isBreak ch else c
      if atBreak c.rest then some (t, c.skipLine) else none

/-! ## Tags and names -/

/-- Reads a tag. -/
def tag? (inFlow : Bool) (c : Cursor) : Option (Token × Cursor) :=
  let read : Option (Token × Cursor) :=
    if c.rest.tail.head? = some '<' then
      match tagTextAt? true (c.skipMany 2) with
      | some (text, c) =>
        if text.isEmpty || c.head? ≠ some '>' then none else some (.tag "" text, c.skip)
      | none => none
    else
      match tagHandle? false c with
      | none => none
      | some (handle, after) =>
        if 1 < handle.length && handle.endsWith "!" then
          match tagTextAt? false after with
          | some (suffix, after) =>
            if suffix.isEmpty then none else some (.tag handle suffix, after)
          | none => none
        else
          match tagTextAt? false after with
          | some (more, after) =>
            let suffix := String.ofList (handle.toList.drop 1) ++ more
            some (if suffix.isEmpty then .tag "" "!" else .tag "!" suffix, after)
          | none => none
  match read with
  | none => none
  | some (t, c) => if (inFlow && c.head? = some ',') || atBlank c.rest then some (t, c) else none

/-- Reads the name of an anchor or an alias. -/
def name? (c : Cursor) : Option (String × Cursor) :=
  let c := c.skip
  let name := c.rest.takeWhile isWordChar
  let c := c.skipMany name.length
  let ends := atBlank c.rest ||
    match c.head? with
    | some ch => ch ∈ ['?', ':', ',', ']', '}', '%', '@', '`']
    | none => true
  if name.isEmpty || !ends then none else some (String.ofList name, c)

/-! ## One token -/

/-- The colon of a mapping: turns the candidate into a key, or stands for a key that is missing. -/
def colon? (s : Scan) : Option Scan :=
  let missing : Option Scan :=
    if !s.inFlow then
      if s.keyAllowed then
        let s := s.roll s.cursor.column s.tokens.size .blockMappingStart
        some ({ s with keyAllowed := true }.emitSkip .value 1)
      else none
    else some ({ s with keyAllowed := false }.emitSkip .value 1)
  match s.candidates with
  | some candidate :: outer =>
    if candidate.line < s.cursor.line || candidate.index + 1024 < s.cursor.index then
      if candidate.required then none else missing
    else
      let s := { s with candidates := none :: outer }
      let s := s.insertAt candidate.position .key
      let s := s.roll candidate.column candidate.position .blockMappingStart
      some ({ s with keyAllowed := false }.emitSkip .value 1)
  | _ => missing

/-- An indicator of the block structure, which must stand where a key may begin. -/
def blockIndicator? (s : Scan) (opening indicator : Token) (keyAllowed : Bool) : Option Scan :=
  let rolled : Option Scan :=
    if s.inFlow then some s
    else if s.keyAllowed then some (s.roll s.cursor.column s.tokens.size opening)
    else none
  rolled.bind fun s =>
    s.dropCandidate?.map fun s => { s with keyAllowed }.emitSkip indicator 1

/-- A bracket that opens a flow collection. -/
def openFlow? (s : Scan) (t : Token) : Option Scan :=
  s.saveCandidate?.map fun s =>
    { s with keyAllowed := true, candidates := none :: s.candidates }.emitSkip t 1

/-- A bracket that closes a flow collection. -/
def closeFlow? (s : Scan) (t : Token) : Option Scan :=
  s.dropCandidate?.map fun s =>
    { s with
      keyAllowed := false
      candidates := if s.inFlow then s.candidates.drop 1 else s.candidates }.emitSkip t 1

/-- A token that a key may begin with. -/
def nodeToken? (s : Scan) (read : Cursor → Option (Token × Cursor)) : Option Scan :=
  s.saveCandidate?.bind fun s =>
    (read s.cursor).map fun (t, c) => { s with keyAllowed := false, cursor := c }.emit t

/-- A plain scalar. -/
def plainToken? (s : Scan) : Option Scan :=
  s.saveCandidate?.bind fun s =>
    (plain? s.inFlow (s.indent + 1).toNat s.cursor).map fun (text, broken, c) =>
      { s with keyAllowed := broken, cursor := c }.emit (.scalar text .plain)

/-- A block scalar. -/
def blockScalar? (s : Scan) (folded : Bool) : Option Scan :=
  s.dropCandidate?.bind fun s =>
    (block? folded s.indent s.cursor).map fun (text, c) =>
      { s with keyAllowed := true, cursor := c }.emit
        (.scalar text (if folded then .folded else .literal))

/-- A line that begins or ends a document. -/
def documentMarker? (s : Scan) (t : Token) : Option Scan :=
  (s.unroll (-1)).dropCandidate?.map fun s => { s with keyAllowed := false }.emitSkip t 3

/-- A plain scalar may begin with the character. -/
def startsPlain (inFlow : Bool) (c : Char) (rest : List Char) : Bool :=
  !(isSpace c || isBreak c ||
      c ∈ ['-', '?', ':', ',', '[', ']', '{', '}', '#', '&', '*', '!', '|', '>', '\'', '"', '%',
        '@', '`']) ||
    (c = '-' && !(match rest.head? with
      | some next => isSpace next
      | none => false)) ||
    (!inFlow && (c = '?' || c = ':') && !atBlank rest)

/-- Reads the next token, or closes everything at the end of the text. -/
def next? (s : Scan) : Option Scan :=
  let s := s.toNextToken (s.cursor.rest.length + 1)
  let s := s.unroll s.cursor.column
  match s.cursor.rest with
  | [] => (s.unroll (-1)).dropCandidate?.map fun s => { s with keyAllowed := false }.emit .streamEnd
  | c :: rest =>
    let marker := s.cursor.atDocumentMarker
    if s.cursor.column = 0 && c = '%' then
      (s.unroll (-1)).dropCandidate?.bind fun s =>
        (directive? s.cursor).map fun (t, cursor) =>
          { s with keyAllowed := false, cursor }.emit t
    else if marker && c = '-' then s.documentMarker? .documentStart
    else if marker && c = '.' then s.documentMarker? .documentEnd
    else if c = '[' then s.openFlow? .flowSequenceStart
    else if c = '{' then s.openFlow? .flowMappingStart
    else if c = ']' then s.closeFlow? .flowSequenceEnd
    else if c = '}' then s.closeFlow? .flowMappingEnd
    else if c = ',' then
      s.dropCandidate?.map fun s => { s with keyAllowed := true }.emitSkip .flowEntry 1
    else if c = '-' && atBlank rest then s.blockIndicator? .blockSequenceStart .blockEntry true
    else if c = '?' && (s.inFlow || atBlank rest) then
      s.blockIndicator? .blockMappingStart .key (!s.inFlow)
    else if c = ':' && (s.inFlow || atBlank rest) then s.colon?
    else if c = '*' then s.nodeToken? fun c => (name? c).map fun (n, c) => (.alias n, c)
    else if c = '&' then s.nodeToken? fun c => (name? c).map fun (n, c) => (.anchor n, c)
    else if c = '!' then s.nodeToken? (tag? s.inFlow)
    else if c = '|' && !s.inFlow then s.blockScalar? false
    else if c = '>' && !s.inFlow then s.blockScalar? true
    else if c = '\'' then
      s.nodeToken? fun c => (quoted? true c).map fun (t, c) => (.scalar t .singleQuoted, c)
    else if c = '"' then
      s.nodeToken? fun c => (quoted? false c).map fun (t, c) => (.scalar t .doubleQuoted, c)
    else if startsPlain s.inFlow c rest then s.plainToken?
    else none

/-- Reads tokens up to the end of the text. -/
def toEnd? : Nat → Scan → Option (List Token)
  | 0, _ => none
  | fuel + 1, s =>
    match s.next? with
    | none => none
    | some s => if s.tokens.back? = some .streamEnd then some s.tokens.toList else toEnd? fuel s

end Scan

/-- The tokens of a text. -/
def Token.ofText? (text : List Char) : Option (List Token) :=
  Scan.toEnd? (text.length + 2) { cursor := { rest := text } }

end FeedCapture.Yaml
