import FeedCapture.Document
import FeedCapture.Yaml.Node

/-!
# What a YAML text says

The document that a YAML text stands for: aliases are replaced by what they stand for, keys are
taken as text, and plain scalars are read as nothing, a truth value, a number or text.  A node with
a tag of its own is a map with the tag as its only key.

Collections may be nested up to 128 deep, and aliases may be followed at most one hundred times for
every part of the text.

## Main definitions

* `Yaml.plainValue` — what a scalar without quotes means
* `Yaml.readMap?` — the entries of the map that a text stands for
-/

namespace FeedCapture.Yaml

/-! ## Plain scalars -/

/-- A word for nothing. -/
def isNull (s : String) : Bool := s ∈ ["null", "Null", "NULL", "~"]

/-- A word for a truth value. -/
def bool? (s : String) : Option Bool :=
  if s ∈ ["true", "True", "TRUE"] then some true
  else if s ∈ ["false", "False", "FALSE"] then some false
  else none

/-- Digits with a zero before them, after at most one sign: this is text, not a number. -/
def isZeroPadded (text : List Char) : Bool :=
  let digits := match text with
    | '+' :: digits => digits
    | '-' :: digits => digits
    | digits => digits
  match digits with
  | '0' :: d :: rest => (d :: rest).all Char.isDigit
  | _ => false

/-- The number that follows a base mark (`0x`, `0o`, `0b`), if there is a mark. -/
def based? : List Char → Option Nat
  | '0' :: 'x' :: digits => Digits.natural? 16 digits
  | '0' :: 'o' :: digits => Digits.natural? 8 digits
  | '0' :: 'b' :: digits => Digits.natural? 2 digits
  | _ => none

/-- A whole number that is not negative: decimal or with a base mark, after at most one plus. -/
def positive? (text : List Char) : Option Nat :=
  let body := match text with
    | '+' :: body => body
    | body => body
  match based? body with
  | some n => some n
  | none => if isZeroPadded text then none else Digits.natural? 10 body

/-- A whole number with a minus sign. -/
def negative? (text : List Char) : Option Nat :=
  match text with
  | '-' :: body =>
    match based? body with
    | some n => some n
    | none => if isZeroPadded text then none else Digits.natural? 10 body
  | _ => none

/-- A whole number that fits 128 bits. -/
def integer? (text : List Char) : Option Int :=
  match positive? text with
  | some n => if n < 1 <<< 128 then some n else none
  | none =>
    match negative? text with
    | some n => if n ≤ 1 <<< 127 then some (-(n : Int)) else none
    | none => none

/-- A number with a point or an exponent, an infinity, or not a number. -/
def float? (text : List Char) : Option Real64 :=
  let body := match text with
    | '+' :: body => body
    | body => body
  let word := String.ofList text
  if String.ofList body ∈ [".inf", ".Inf", ".INF"] then some (.infinite false)
  else if word ∈ ["-.inf", "-.Inf", "-.INF"] then some (.infinite true)
  else if word ∈ [".nan", ".NaN", ".NAN"] then some .nan
  else if text.head? = some '+' && (body.head? = some '+' || body.head? = some '-') then none
  else (Real64.parse? body).filter Real64.isFinite

/-- What a scalar without quotes means. -/
def plainValue (s : String) : Document :=
  if s.isEmpty || isNull s then .null
  else
    match bool? s with
    | some b => .bool b
    | none =>
      match integer? s.toList with
      | some n => .ofInteger s.toList n
      | none =>
        if isZeroPadded s.toList then .text s
        else
          match float? s.toList with
          | some x => .float x
          | none => .text s

/-! ## Tags -/

/-- The name of a tag that is not one of the standard ones. -/
def ownTag? (tag : Option String) : Option String :=
  match tag with
  | none => none
  | some t =>
    match t.toList with
    | '!' :: rest => some (if rest.isEmpty then t else String.ofList rest)
    | _ => none

/-- What a scalar means under the standard tag that it carries, if any. -/
def taggedValue? (tag : Option String) (s : String) (style : ScalarStyle) : Option Document :=
  match tag with
  | none => some (if style = .plain then plainValue s else .text s)
  | some "tag:yaml.org,2002:bool" => (bool? s).map .bool
  | some "tag:yaml.org,2002:int" => (integer? s.toList).map (Document.ofInteger s.toList)
  | some "tag:yaml.org,2002:float" => (float? s.toList).map .float
  | some "tag:yaml.org,2002:null" => if isNull s then some .null else none
  | some _ => some (.text s)

/-! ## Aliases and collections -/

/-- Something read from a node: the document, how deep its collections nest, and how many aliases
were followed for it. -/
structure Reading where
  document : Document
  depth : Nat
  jumps : Nat

/-- What the anchors seen so far stand for.  An anchor whose node is not complete has nothing. -/
abbrev Anchors := List (String × Option (Node × Reading))

/-- Remembers a node under its anchor. -/
def remember (anchors : Anchors) (anchor : Option String) (value : Option (Node × Reading)) :
    Anchors :=
  match anchor with
  | some name => (name, value) :: anchors
  | none => anchors

/-- A document under a tag of its own is a map with the tag as key. -/
def underTag (tag : Option String) (r : Reading) : Reading :=
  match ownTag? tag with
  | some name => { r with document := .map [(name, r.document)] }
  | none => r

/-- The text of a key; a collection cannot be one. -/
def keyText? (anchors : Anchors) : Node → Option (String × Nat × Anchors)
  | .scalar anchor tag value style =>
    some (value, 0,
      remember anchors anchor (some (.scalar none tag value style, ⟨.text value, 0, 0⟩)))
  | .alias name =>
    match anchors.lookup name with
    | some (some (.scalar _ _ value _, _)) => some (value, 1, anchors)
    | _ => none
  | _ => none

mutual

/-- Reads a node. -/
def read? (anchors : Anchors) : Node → Option (Reading × Anchors)
  | .alias name =>
    match anchors.lookup name with
    | some (some (_, r)) => some ({ r with jumps := r.jumps + 1 }, anchors)
    | _ => none
  | .scalar anchor tag value style =>
    let own := (ownTag? tag).isSome
    let r : Option Reading :=
      (if own then taggedValue? none value style else taggedValue? tag value style).map fun d =>
        underTag tag ⟨d, 0, 0⟩
    r.map fun r => (r, remember anchors anchor (some (.scalar none tag value style, r)))
  | .sequence anchor tag items =>
    match readItems? (remember anchors anchor none) items with
    | none => none
    | some (documents, depth, jumps, anchors) =>
      let r := underTag tag ⟨.list documents, depth + 1, jumps⟩
      some (r, remember anchors anchor (some (.sequence none tag [], r)))
  | .mapping anchor tag entries =>
    match readEntries? (remember anchors anchor none) entries with
    | none => none
    | some (entries, depth, jumps, anchors) =>
      let r := underTag tag ⟨.map entries, depth + 1, jumps⟩
      some (r, remember anchors anchor (some (.mapping none tag [], r)))

/-- Reads the items of a sequence. -/
def readItems? (anchors : Anchors) : List Node → Option (List Document × Nat × Nat × Anchors)
  | [] => some ([], 0, 0, anchors)
  | node :: rest =>
    match read? anchors node with
    | none => none
    | some (r, anchors) =>
      match readItems? anchors rest with
      | none => none
      | some (documents, depth, jumps, anchors) =>
        some (r.document :: documents, max r.depth depth, r.jumps + jumps, anchors)

/-- Reads the entries of a mapping. -/
def readEntries? (anchors : Anchors) :
    List (Node × Node) → Option (List (String × Document) × Nat × Nat × Anchors)
  | [] => some ([], 0, 0, anchors)
  | (key, value) :: rest =>
    match keyText? anchors key with
    | none => none
    | some (key, keyJumps, anchors) =>
      match read? anchors value with
      | none => none
      | some (r, anchors) =>
        match readEntries? anchors rest with
        | none => none
        | some (entries, depth, jumps, anchors) =>
          some ((key, r.document) :: entries, max r.depth depth, keyJumps + r.jumps + jumps,
            anchors)

end

mutual

/-- How many parts a node has: every scalar and alias is one, every collection two. -/
def parts : Node → Nat
  | .alias _ => 1
  | .scalar _ _ _ _ => 1
  | .sequence _ _ items => 2 + partsOfItems items
  | .mapping _ _ entries => 2 + partsOfEntries entries

/-- The parts of the items of a sequence. -/
def partsOfItems : List Node → Nat
  | [] => 0
  | node :: rest => parts node + partsOfItems rest

/-- The parts of the entries of a mapping. -/
def partsOfEntries : List (Node × Node) → Nat
  | [] => 0
  | (key, value) :: rest => parts key + parts value + partsOfEntries rest

end

/-- The deepest nesting of collections. -/
def maxDepth : Nat := 128

/-- The entries of the map that a text stands for.  A text without a document, or with an empty one,
is an empty map; anything else that is not a map is refused. -/
def readMap? (text : String) : Option (List (String × Document)) :=
  match Node.ofText? text with
  | none => none
  | some none => some []
  | some (some (.scalar _ _ "" .plain)) => some []
  | some (some (.mapping anchor _ entries)) =>
    match read? [] (.mapping anchor none entries) with
    | some (⟨.map found, depth, jumps⟩, _) =>
      if depth ≤ maxDepth && jumps ≤ 100 * parts (.mapping none none entries) then some found
      else none
    | _ => none
  | some (some _) => none

end FeedCapture.Yaml
