import FeedCapture.Yaml.Token

/-!
# The tree of a YAML text

A text holds at most one document, and a document is a tree of scalars, sequences and mappings.  A
node may carry a tag and an anchor, and an alias stands for the node with the anchor of its name.

## Main definitions

* `Yaml.Node`
* `Yaml.Node.ofText?` — the root of the document of a text
-/

namespace FeedCapture.Yaml

/-- A node as it is written. -/
inductive Node where
  | scalar (anchor tag : Option String) (value : String) (style : ScalarStyle)
  | sequence (anchor tag : Option String) (items : List Node)
  | mapping (anchor tag : Option String) (entries : List (Node × Node))
  | alias (name : String)
deriving Repr, Inhabited

namespace Node

/-- The node that stands where none is written. -/
def empty : Node := .scalar none none "" .plain

/-- An empty scalar with properties. -/
def emptyWith (anchor tag : Option String) : Node := .scalar anchor tag "" .plain

/-- The addresses that tag handles stand for. -/
abbrev Handles := List (String × String)

/-- The handles that every document knows. -/
def defaultHandles : Handles := [("!", "!"), ("!!", "tag:yaml.org,2002:")]

/-- The full tag; a handle must be known. -/
def fullTag? (handles : Handles) (handle suffix : String) : Option String :=
  if handle = "" then some suffix else (handles.lookup handle).map fun address => address ++ suffix

/-- Reads a tag and an anchor in either order, each at most once. -/
def properties? (handles : Handles) (tokens : List Token) :
    Option (Option String × Option String × List Token) :=
  match tokens with
  | .anchor a :: .tag h s :: rest => (fullTag? handles h s).map fun t => (some a, some t, rest)
  | .tag h s :: .anchor a :: rest => (fullTag? handles h s).map fun t => (some a, some t, rest)
  | .anchor a :: rest => some (some a, none, rest)
  | .tag h s :: rest => (fullTag? handles h s).map fun t => (none, some t, rest)
  | _ => some (none, none, tokens)

mutual

/-- Reads a node.  Block collections are allowed if `block` is set, and a sequence that is not
indented further than its key if `indentless` is set. -/
def node? (handles : Handles) (block indentless : Bool) :
    Nat → List Token → Option (Node × List Token)
  | 0, _ => none
  | fuel + 1, tokens =>
    match tokens with
    | .alias name :: rest => some (.alias name, rest)
    | _ =>
      match properties? handles tokens with
      | none => none
      | some (anchor, tag, tokens) =>
        match tokens with
        | .scalar value style :: rest => some (.scalar anchor tag value style, rest)
        | .flowSequenceStart :: rest =>
          (flowItems? handles fuel true [] rest).map fun (items, rest) =>
            (.sequence anchor tag items, rest)
        | .flowMappingStart :: rest =>
          (flowEntries? handles fuel true [] rest).map fun (entries, rest) =>
            (.mapping anchor tag entries, rest)
        | .blockEntry :: _ =>
          if indentless then
            (indentlessItems? handles fuel [] tokens).map fun (items, rest) =>
              (.sequence anchor tag items, rest)
          else if anchor.isSome || tag.isSome then some (emptyWith anchor tag, tokens)
          else none
        | .blockSequenceStart :: rest =>
          if block then
            (blockItems? handles fuel [] rest).map fun (items, rest) =>
              (.sequence anchor tag items, rest)
          else if anchor.isSome || tag.isSome then some (emptyWith anchor tag, tokens)
          else none
        | .blockMappingStart :: rest =>
          if block then
            (blockEntries? handles fuel [] rest).map fun (entries, rest) =>
              (.mapping anchor tag entries, rest)
          else if anchor.isSome || tag.isSome then some (emptyWith anchor tag, tokens)
          else none
        | _ =>
          if anchor.isSome || tag.isSome then some (emptyWith anchor tag, tokens) else none

/-- Reads the items of a block sequence up to its end. -/
def blockItems? (handles : Handles) :
    Nat → List Node → List Token → Option (List Node × List Token)
  | 0, _, _ => none
  | fuel + 1, read, tokens =>
    match tokens with
    | .blockEntry :: rest =>
      match rest with
      | .blockEntry :: _ => blockItems? handles fuel (empty :: read) rest
      | .blockEnd :: _ => blockItems? handles fuel (empty :: read) rest
      | _ =>
        match node? handles true false fuel rest with
        | some (item, rest) => blockItems? handles fuel (item :: read) rest
        | none => none
    | .blockEnd :: rest => some (read.reverse, rest)
    | _ => none

/-- Reads the items of a sequence that is not indented further than its key. -/
def indentlessItems? (handles : Handles) :
    Nat → List Node → List Token → Option (List Node × List Token)
  | 0, _, _ => none
  | fuel + 1, read, tokens =>
    match tokens with
    | .blockEntry :: rest =>
      match rest with
      | .blockEntry :: _ => indentlessItems? handles fuel (empty :: read) rest
      | .key :: _ => indentlessItems? handles fuel (empty :: read) rest
      | .value :: _ => indentlessItems? handles fuel (empty :: read) rest
      | .blockEnd :: _ => indentlessItems? handles fuel (empty :: read) rest
      | _ =>
        match node? handles true false fuel rest with
        | some (item, rest) => indentlessItems? handles fuel (item :: read) rest
        | none => none
    | _ => some (read.reverse, tokens)

/-- Reads a key or a value of a block mapping; nothing may stand there. -/
def blockPart? (handles : Handles) : Nat → List Token → Option (Node × List Token)
  | 0, _ => none
  | fuel + 1, tokens =>
    match tokens with
    | .key :: _ => some (empty, tokens)
    | .value :: _ => some (empty, tokens)
    | .blockEnd :: _ => some (empty, tokens)
    | _ => node? handles true true fuel tokens

/-- Reads the entries of a block mapping up to its end. -/
def blockEntries? (handles : Handles) :
    Nat → List (Node × Node) → List Token → Option (List (Node × Node) × List Token)
  | 0, _, _ => none
  | fuel + 1, read, tokens =>
    match tokens with
    | .key :: rest =>
      match blockPart? handles fuel rest with
      | none => none
      | some (key, rest) =>
        match rest with
        | .value :: rest =>
          match blockPart? handles fuel rest with
          | some (value, rest) => blockEntries? handles fuel ((key, value) :: read) rest
          | none => none
        | _ => blockEntries? handles fuel ((key, empty) :: read) rest
    | .blockEnd :: rest => some (read.reverse, rest)
    | _ => none

/-- Reads what may stand before a colon, a comma or a closing bracket of a flow collection. -/
def flowPart? (handles : Handles) : Nat → List Token → Option (Node × List Token)
  | 0, _ => none
  | fuel + 1, tokens =>
    match tokens with
    | .value :: _ => some (empty, tokens)
    | .flowEntry :: _ => some (empty, tokens)
    | .flowSequenceEnd :: _ => some (empty, tokens)
    | .flowMappingEnd :: _ => some (empty, tokens)
    | _ => node? handles false false fuel tokens

/-- Reads the items of a flow sequence up to its end.  An item may be a mapping of one entry. -/
def flowItems? (handles : Handles) :
    Nat → Bool → List Node → List Token → Option (List Node × List Token)
  | 0, _, _, _ => none
  | fuel + 1, first, read, tokens =>
    match tokens with
    | .flowSequenceEnd :: rest => some (read.reverse, rest)
    | _ =>
      let tokens? := if first then some tokens else
        match tokens with
        | .flowEntry :: rest => some rest
        | _ => none
      match tokens? with
      | none => none
      | some tokens =>
        match tokens with
        | .flowSequenceEnd :: rest => if first then none else some (read.reverse, rest)
        | .key :: rest =>
          match flowPart? handles fuel rest with
          | none => none
          | some (key, rest) =>
            match rest with
            | .value :: rest =>
              match flowPart? handles fuel rest with
              | some (value, rest) =>
                flowItems? handles fuel false (.mapping none none [(key, value)] :: read) rest
              | none => none
            | _ => flowItems? handles fuel false (.mapping none none [(key, empty)] :: read) rest
        | _ =>
          match node? handles false false fuel tokens with
          | some (item, rest) => flowItems? handles fuel false (item :: read) rest
          | none => none

/-- Reads the entries of a flow mapping up to its end.  A key may stand alone. -/
def flowEntries? (handles : Handles) :
    Nat → Bool → List (Node × Node) → List Token → Option (List (Node × Node) × List Token)
  | 0, _, _, _ => none
  | fuel + 1, first, read, tokens =>
    match tokens with
    | .flowMappingEnd :: rest => some (read.reverse, rest)
    | _ =>
      let tokens? := if first then some tokens else
        match tokens with
        | .flowEntry :: rest => some rest
        | _ => none
      match tokens? with
      | none => none
      | some tokens =>
        match tokens with
        | .flowMappingEnd :: rest => if first then none else some (read.reverse, rest)
        | .key :: rest =>
          match flowPart? handles fuel rest with
          | none => none
          | some (key, rest) =>
            match rest with
            | .value :: rest =>
              match flowPart? handles fuel rest with
              | some (value, rest) => flowEntries? handles fuel false ((key, value) :: read) rest
              | none => none
            | _ => flowEntries? handles fuel false ((key, empty) :: read) rest
        | _ =>
          match node? handles false false fuel tokens with
          | some (key, rest) => flowEntries? handles fuel false ((key, empty) :: read) rest
          | none => none

end

/-! ## Documents -/

/-- Reads the directives before a document: at most one version, which must be 1.1 or 1.2, and each
tag handle at most once. -/
def directives? : Nat → Bool → Handles → List Token → Option (Bool × Handles × List Token)
  | 0, _, _, _ => none
  | fuel + 1, versioned, handles, tokens =>
    match tokens with
    | .versionDirective major minor :: rest =>
      if versioned || major ≠ 1 || (minor ≠ 1 && minor ≠ 2) then none
      else directives? fuel true handles rest
    | .tagDirective handle address :: rest =>
      if (handles.lookup handle).isSome then none
      else directives? fuel versioned ((handle, address) :: handles) rest
    | _ => some (versioned || !handles.isEmpty, handles, tokens)

/-- Nothing but marks of the end of a document is left. -/
def onlyEnds : List Token → Bool
  | [.streamEnd] => true
  | .documentEnd :: rest => onlyEnds rest
  | _ => false

/-- The root of the only document of a sequence of tokens; none inside if there is no document. -/
def ofTokens? (tokens : List Token) : Option (Option Node) :=
  let fuel := 4 * tokens.length + 8
  match tokens with
  | [.streamEnd] => some none
  | _ =>
    match directives? fuel false [] tokens with
    | none => none
    | some (directed, declared, tokens) =>
      let handles := declared ++ defaultHandles
      let root : Option (Node × List Token) :=
        match tokens with
        | .documentStart :: rest =>
          match rest with
          | .versionDirective _ _ :: _ => some (empty, rest)
          | .tagDirective _ _ :: _ => some (empty, rest)
          | .documentStart :: _ => some (empty, rest)
          | .documentEnd :: _ => some (empty, rest)
          | .streamEnd :: _ => some (empty, rest)
          | _ => node? handles true false fuel rest
        | _ => if directed then none else node? handles true false fuel tokens
      match root with
      | some (node, rest) => if onlyEnds rest then some (some node) else none
      | none => none

/-- The root of the only document of a text; none inside if there is no document. -/
def ofText? (text : String) : Option (Option Node) :=
  (normalize? text.toList).bind fun chars => (Token.ofText? chars).bind ofTokens?

end Node

end FeedCapture.Yaml
