import FeedCapture.Config.Settings

/-!
# Findings about settings

What is wrong with settings is found section by section: each section has findings of its own under
the names of its fields, and the settings have those of their sections inside.  A report walks
through them and has a block for each field, under the path that leads to it.  The findings of a
section come in no particular order.

## Main definitions

* `Finding` — what is wrong with a field
* `Findings.blocks`, `Findings.report` — the blocks of a report, and its text
* `Findings.Shuffled` — the same findings in another order
* `Settings.findings` — what is wrong with settings
-/

namespace FeedCapture

/-- What is wrong with a field. -/
inductive Finding where
  /-- The field itself breaks rules. -/
  | broken (rules : List Settings.Rule)
  /-- Fields inside of it have findings. -/
  | inside (fields : List (String × Finding))
  /-- Items of it, by their numbers, have findings in their fields. -/
  | items (items : List (Nat × List (String × Finding)))

/-- Findings under the names of fields. -/
abbrev Findings := List (String × Finding)

namespace Findings

/-- A block of a report: a path, and the rules that are broken at its end. -/
structure Block where
  path : String
  rules : List Settings.Rule
deriving DecidableEq, Repr

/-- The lines of a block. -/
def Block.text (b : Block) : String :=
  "Field '" ++ b.path ++ "':\n" ++ String.join (b.rules.map fun r => "  - " ++ r.code ++ "\n")

/-- The path of a field inside of what a path leads to. -/
def join (path field : String) : String := if path.isEmpty then field else path ++ "." ++ field

/-- The path of an item of what a path leads to. -/
def item (path : String) (index : Nat) : String := path ++ "[" ++ Nat.repr index ++ "]"

mutual

/-- The blocks for a field at the end of a path. -/
def blocksOf (path : String) : Finding → List Block
  | .broken rules => [⟨path, rules⟩]
  | .inside fields => blocks path fields
  | .items items => itemBlocks path items

/-- The blocks for the fields of what a path leads to. -/
def blocks (path : String) : List (String × Finding) → List Block
  | [] => []
  | (field, finding) :: others => blocksOf (join path field) finding ++ blocks path others

/-- The blocks for the items of what a path leads to. -/
def itemBlocks (path : String) : List (Nat × List (String × Finding)) → List Block
  | [] => []
  | (index, fields) :: others => blocks (item path index) fields ++ itemBlocks path others

end

/-- The report of findings. -/
def report (findings : Findings) : String :=
  "Invalid configuration:\n" ++ String.join ((blocks "" findings).map Block.text)

/-- The findings of a section that breaks rules, each a rule of its own field. -/
def ofViolations (violations : List Violation) : Findings :=
  violations.map fun v => (v.field, .broken [v.rule])

/-- The findings of a section among those of the settings; there are none about a section that keeps
its rules. -/
def ofSection (name : String) (violations : List Violation) : Findings :=
  if violations.isEmpty then [] else [(name, .inside (ofViolations violations))]

/-- The same findings, where those of any section are in another order. -/
inductive Shuffled : Findings → Findings → Prop
  | perm {a b : Findings} (perm : a.Perm b) : Shuffled a b
  | inside {a b : Findings} (field : String) (others : Findings) (shuffled : Shuffled a b) :
      Shuffled ((field, .inside a) :: others) ((field, .inside b) :: others)
  | item {a b : Findings} (field : String) (index : Nat) (before after : List (Nat × Findings))
      (others : Findings) (shuffled : Shuffled a b) :
      Shuffled ((field, .items (before ++ (index, a) :: after)) :: others)
        ((field, .items (before ++ (index, b) :: after)) :: others)
  | trans {a b c : Findings} (first : Shuffled a b) (second : Shuffled b c) : Shuffled a c

end Findings

/-- What is wrong with settings. -/
def Settings.findings (s : Settings) : Findings :=
  Findings.ofSection "capture" s.capture.violations ++
  Findings.ofSection "sink" s.sink.violations ++
  Findings.ofSection "telemetry" s.telemetry.violations

end FeedCapture
