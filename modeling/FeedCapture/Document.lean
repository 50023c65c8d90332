import FeedCapture.Number.Real64

/-!
# Documents

The tree of values that a configuration file, an environment variable or a structured message
holds.

## Main definitions

* `Document`
* `Document.get?` — the value under a key, the last one when the key is repeated
* `Document.merge` — one document over another
* `Document.has` — a way of keys and numbers leads to a value
-/

namespace FeedCapture

/-- A tree of values. -/
inductive Document where
  | null
  | bool (b : Bool)
  | int (n : Int)
  /-- A zero that is written with a minus sign, and so is a signed number. -/
  | minusZero
  | float (x : Real64)
  | text (s : String)
  /-- A single character, which only an environment variable can give. -/
  | char (c : Char)
  | list (items : List Document)
  | map (entries : List (String × Document))
deriving Repr, Inhabited

namespace Document

/-- The whole number that a text means, by whether the text has a minus sign. -/
def ofInteger (written : List Char) (n : Int) : Document :=
  if n = 0 && written.head? = some '-' then .minusZero else .int n

/-- The value under a key of a list of entries; a later entry hides an earlier one. -/
def lookup (entries : List (String × Document)) (key : String) : Option Document :=
  entries.foldl (fun found e => if e.1 = key then some e.2 else found) none

/-- The value under a key, if the document is a map that has it. -/
def get? (d : Document) (key : String) : Option Document :=
  match d with
  | .map entries => lookup entries key
  | _ => none

/-! ## One document over another -/

/-- Puts a value under a key, in the place of any earlier one. -/
def put (entries : List (String × Document)) (key : String) (d : Document) :
    List (String × Document) :=
  entries.filter (fun e => e.1 ≠ key) ++ [(key, d)]

mutual

/-- The higher document over the lower one: two maps are merged key by key, and anything else is
replaced. -/
def merge (low : Document) : Document → Document
  | .map high =>
    match low with
    | .map entries => .map (mergeEntries entries high)
    | _ => .map high
  | d => d

/-- The entries of a higher map over those of a lower one. -/
def mergeEntries (low : List (String × Document)) :
    List (String × Document) → List (String × Document)
  | [] => low
  | (key, d) :: rest =>
    if rest.any (fun e => e.1 = key) then mergeEntries low rest
    else
      mergeEntries
        (put low key
          (match lookup low key with
          | some l => merge l d
          | none => d))
        rest

end

/-- A value that is only reached through the given keys. -/
def nest : List String → Document → Document
  | [], d => d
  | key :: keys, d => .map [(key, nest keys d)]

/-- The keys, and the numbers of list items, lead to a value. -/
def has : List String → Document → Bool
  | [], _ => true
  | key :: keys, .map entries =>
    match lookup entries key with
    | some d => has keys d
    | none => false
  | key :: keys, .list items =>
    match key.toNat? with
    | some n =>
      match items[n]? with
      | some d => has keys d
      | none => false
    | none => false
  | _ :: _, _ => false

end Document

end FeedCapture
