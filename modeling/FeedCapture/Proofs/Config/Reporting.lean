import FeedCapture.Config.Findings
import FeedCapture.Proofs.Config.Addresses
import FeedCapture.Proofs.Config.Rules
import Mathlib.Data.List.Perm.Basic

/-!
# Reports on settings

The rules for settings as a table, and what a report on settings has to say by it: one block for
each rule that is broken, under the path of its field, and one about the thresholds when nothing
else in their section is wrong.  Settings are accepted exactly when there is nothing to say, and the
report says exactly that otherwise, in whatever order the findings come.

## Main definitions

* `Constraint` — a rule for a field, with the tables of those of each section
* `Settings.CallsFor` — the blocks that a report on settings should have
* `Settings.Reports` — a text is a report with exactly these blocks

The main statement is `Settings.report_of_settings`.
-/

namespace FeedCapture

/-! ## The table of rules -/

/-- A rule for a field: its path and its name in reports, and what it asks of settings. -/
structure Constraint where
  path : String
  code : String
  Holds : Settings → Prop

namespace Constraint

/-- A number lies between two bounds, ends included. -/
def range (path : String) (low high : Nat) (value : Settings → Nat) : Constraint where
  path
  code := "range"
  Holds s := low ≤ value s ∧ value s ≤ high

/-- The rules for the fields of the capture section. -/
def capture : List Constraint :=
  [⟨"capture.sources", "invalid_source_address",
      fun s => ∀ text ∈ s.capture.sources, SourceAddress.isValid text.toList = true⟩,
    range "capture.bus_capacity" 1 1048576 fun s => s.capture.busCapacity,
    range "capture.reconnect_delay_ms" 1 3600000 fun s => s.capture.reconnectDelay,
    range "capture.read_deadline_ms" 1 600000 fun s => s.capture.readDeadline,
    range "capture.idle_timeout_ms" 1 3600000 fun s => s.capture.idleTimeout,
    range "capture.keepalive_period_ms" 1000 3600000 fun s => s.capture.keepalivePeriod,
    range "capture.read_buffer_size" 64 1048576 fun s => s.capture.readBufferSize]

/-- The rules for the fields of the sink section. -/
def sink : List Constraint :=
  [⟨"sink.prefix", "invalid_file_prefix", fun s => s.sink.filePrefix ≠ "" ∧
      ∀ c ∈ s.sink.filePrefix.toList, c.isAlphanum = true ∨ c = '_' ∨ c = '-' ∨ c = '.'⟩,
    range "sink.flush_interval_ms" 1 60000 fun s => s.sink.flushInterval]

/-- The rules for the fields of the telemetry section. -/
def telemetry : List Constraint :=
  [⟨"telemetry.log_level", "length", fun s => s.telemetry.logLevel ≠ ""⟩]

/-- The rules for all fields. -/
def all : List Constraint := capture ++ sink ++ telemetry

end Constraint

namespace Settings

/-- Every field keeps its rule, and the thresholds are in order. -/
structure KeepsRules (s : Settings) : Prop where
  fields : ∀ c ∈ Constraint.all, c.Holds s
  thresholds : s.capture.hiccupMin < s.capture.reestablishedAfter

/-- A report should have a block with this path and this code. -/
inductive CallsFor (s : Settings) : String → String → Prop
  | field {c : Constraint} (mem : c ∈ Constraint.all) (broken : ¬ c.Holds s) :
      CallsFor s c.path c.code
  | thresholds (disorder : s.capture.reestablishedAfter ≤ s.capture.hiccupMin)
      (fields : ∀ c ∈ Constraint.capture, c.Holds s) :
      CallsFor s "capture.__all__" "hiccup_threshold_not_below_reestablished"

/-- The text is a report that has exactly the blocks that it should have, with one code each, and no
path twice. -/
def Reports (s : Settings) (text : String) : Prop :=
  ∃ blocks : List (String × String),
    text = "Invalid configuration:\n" ++
      String.join (blocks.map fun b => "Field '" ++ b.1 ++ "':\n  - " ++ b.2 ++ "\n") ∧
    (blocks.map Prod.fst).Nodup ∧
    ∀ path code, (path, code) ∈ blocks ↔ s.CallsFor path code

/-! ## What is found -/

theorem require_sublist (field : String) (rule : Rule) (kept : Bool) :
    (require field rule kept).Sublist [⟨field, rule⟩] := by
  cases kept
  · exact .refl _
  · exact List.nil_sublist _

end Settings

/-- The fields of the capture section with their rules, and the rule for the thresholds. -/
def CaptureSettings.possible : List Violation :=
  [⟨"sources", .sourceAddress⟩, ⟨"bus_capacity", .range⟩, ⟨"reconnect_delay_ms", .range⟩,
    ⟨"read_deadline_ms", .range⟩, ⟨"idle_timeout_ms", .range⟩, ⟨"keepalive_period_ms", .range⟩,
    ⟨"read_buffer_size", .range⟩, ⟨"__all__", .thresholdOrder⟩]

theorem CaptureSettings.violations_sublist (s : CaptureSettings) :
    s.violations.Sublist possible := by
  have fields : s.fieldViolations.Sublist (possible.take 7) :=
    (((((Settings.require_sublist ..).append (Settings.require_sublist ..)).append
      (Settings.require_sublist ..)).append (Settings.require_sublist ..)).append
      (Settings.require_sublist ..)).append (Settings.require_sublist ..) |>.append
      (Settings.require_sublist ..)
  unfold violations
  split
  · exact (Settings.require_sublist ..).trans (List.drop_sublist 7 possible)
  · exact fields.trans (List.take_sublist 7 possible)

theorem SinkSettings.violations_sublist (s : SinkSettings) :
    s.violations.Sublist [⟨"prefix", .filePrefix⟩, ⟨"flush_interval_ms", .range⟩] :=
  (Settings.require_sublist ..).append (Settings.require_sublist ..)

namespace Settings

/-- No path is found twice. -/
theorem nodup_violations (s : Settings) : (s.violations.map Violation.field).Nodup := by
  have sub := ((s.capture.violations_sublist.map (Violation.under "capture")).append
    (s.sink.violations_sublist.map (Violation.under "sink"))).append
    ((require_sublist "log_level" .length (!s.telemetry.logLevel.isEmpty)).map
      (Violation.under "telemetry"))
  exact (sub.map Violation.field).nodup (by decide)

/-- A violation with this path and this code is among those that were found. -/
def Found (violations : List Violation) (path code : String) : Prop :=
  ∃ v ∈ violations, v.field = path ∧ v.rule.code = code

/-- A rule with this path and this code is broken. -/
def Broken (s : Settings) (rules : List Constraint) (path code : String) : Prop :=
  ∃ c ∈ rules, ¬ c.Holds s ∧ c.path = path ∧ c.code = code

/-- The block with this path and this code is the one about the thresholds, and there is one. -/
def Disordered (s : Settings) (path code : String) : Prop :=
  (s.capture.reestablishedAfter ≤ s.capture.hiccupMin ∧ ∀ c ∈ Constraint.capture, c.Holds s) ∧
    "capture.__all__" = path ∧ "hiccup_threshold_not_below_reestablished" = code

variable {path code : String} {s : Settings}

theorem found_append_iff {violations others : List Violation} :
    Found (violations ++ others) path code ↔
      Found violations path code ∨ Found others path code := by
  simp only [Found, List.mem_append, or_and_right, exists_or]

theorem found_require_iff {name field : String} {rule : Rule} {kept : Bool} :
    Found ((require field rule kept).map (Violation.under name)) path code ↔
      ¬ kept = true ∧ name ++ "." ++ field = path ∧ rule.code = code := by
  cases kept <;> simp [Found, require, Violation.under]

theorem broken_append_iff {rules others : List Constraint} :
    Broken s (rules ++ others) path code ↔
      Broken s rules path code ∨ Broken s others path code := by
  simp only [Broken, List.mem_append, or_and_right, exists_or]

theorem broken_cons_iff {c : Constraint} {rules : List Constraint} :
    Broken s (c :: rules) path code ↔
      (¬ c.Holds s ∧ c.path = path ∧ c.code = code) ∨ Broken s rules path code := by
  simp only [Broken, List.mem_cons, or_and_right, exists_or, exists_eq_left]

theorem not_broken_nil : ¬ Broken s [] path code := by simp [Broken]

theorem found_capture_fields_iff :
    Found (s.capture.fieldViolations.map (Violation.under "capture")) path code ↔
      Broken s Constraint.capture path code := by
  simp only [CaptureSettings.fieldViolations, List.map_append, found_append_iff, found_require_iff,
    Constraint.capture, broken_cons_iff, not_broken_nil, or_false, Constraint.range, within_iff,
    SourceAddress.allValid_iff, Rule.code, String.reduceAppend, or_assoc]

theorem found_sink_iff :
    Found (s.sink.violations.map (Violation.under "sink")) path code ↔
      Broken s Constraint.sink path code := by
  simp only [SinkSettings.violations, List.map_append, found_append_iff, found_require_iff,
    Constraint.sink, broken_cons_iff, not_broken_nil, or_false, Constraint.range, within_iff,
    SinkSettings.isFilePrefix_iff, Rule.code, String.reduceAppend]

theorem found_telemetry_iff :
    Found (s.telemetry.violations.map (Violation.under "telemetry")) path code ↔
      Broken s Constraint.telemetry path code := by
  simp [TelemetrySettings.violations, found_require_iff, Constraint.telemetry, broken_cons_iff,
    not_broken_nil, Rule.code]

/-- The fields of the capture section keep their rules when nothing is found about them. -/
theorem fieldViolations_eq_nil_iff :
    s.capture.fieldViolations = [] ↔ ∀ c ∈ Constraint.capture, c.Holds s := by
  constructor
  · intro none c mem
    by_contra broken
    have found := found_capture_fields_iff.2 ⟨c, mem, broken, rfl, rfl⟩
    simp [none, Found] at found
  · intro holds
    refine List.eq_nil_iff_forall_not_mem.2 fun v mem => ?_
    obtain ⟨c, mem, broken, -⟩ := found_capture_fields_iff.1
      ⟨v.under "capture", List.mem_map_of_mem mem, rfl, rfl⟩
    exact broken (holds c mem)

/-- The order of the thresholds is found wrong only when nothing else is. -/
theorem found_capture_iff :
    Found (s.capture.violations.map (Violation.under "capture")) path code ↔
      Broken s Constraint.capture path code ∨ Disordered s path code := by
  unfold CaptureSettings.violations Disordered
  split
  · next none =>
    have holds := fieldViolations_eq_nil_iff.1 none
    have whole : ¬ Broken s Constraint.capture path code := by
      rintro ⟨c, mem, broken, -⟩
      exact broken (holds c mem)
    simp only [found_require_iff, decide_eq_true_eq, Nat.not_lt, Rule.code, String.reduceAppend,
      whole, false_or, and_iff_left holds]
  · next some =>
    have holds : ¬ ∀ c ∈ Constraint.capture, c.Holds s := mt fieldViolations_eq_nil_iff.2 some
    simp only [found_capture_fields_iff, holds, and_false, false_and, or_false]

/-- **What is found is what a report should say.** -/
theorem found_iff : Found s.violations path code ↔ s.CallsFor path code := by
  have fields : Broken s Constraint.all path code ↔ Broken s Constraint.capture path code ∨
      Broken s Constraint.sink path code ∨ Broken s Constraint.telemetry path code := by
    simp only [Constraint.all, broken_append_iff, or_assoc]
  simp only [violations, found_append_iff, found_capture_iff, found_sink_iff, found_telemetry_iff]
  constructor
  · intro found
    have broken : Broken s Constraint.all path code ∨ Disordered s path code := by
      rw [fields]
      tauto
    rcases broken with ⟨c, mem, broken, rfl, rfl⟩ | ⟨⟨disorder, holds⟩, rfl, rfl⟩
    · exact .field mem broken
    · exact .thresholds disorder holds
  · rintro (⟨mem, broken⟩ | ⟨disorder, holds⟩)
    · have := fields.1 ⟨_, mem, broken, rfl, rfl⟩
      tauto
    · exact .inl (.inl (.inr ⟨⟨disorder, holds⟩, rfl, rfl⟩))

/-- Nothing is found exactly when every rule is kept. -/
theorem violations_eq_nil_iff_keepsRules : s.violations = [] ↔ s.KeepsRules := by
  constructor
  · intro none
    have silent {path code} : ¬ s.CallsFor path code := fun calls => by
      have found := found_iff.2 calls
      simp [none, Found] at found
    have fields : ∀ c ∈ Constraint.all, c.Holds s := fun c mem => by
      by_contra broken
      exact silent (.field mem broken)
    refine ⟨fields, Nat.lt_of_not_le fun disorder => silent (.thresholds disorder fun c mem => ?_)⟩
    exact fields c (List.mem_append_left _ (List.mem_append_left _ mem))
  · intro kept
    refine List.eq_nil_iff_forall_not_mem.2 fun v mem => ?_
    have calls := found_iff.1 ⟨v, mem, rfl, rfl⟩
    generalize v.field = path, v.rule.code = code at calls
    cases calls with
    | field mem broken => exact broken (kept.fields _ mem)
    | thresholds disorder _ => exact Nat.not_lt.2 disorder kept.thresholds

end Settings

/-! ## The blocks of a report -/

/-- The block about a single violation. -/
def Violation.toBlock (v : Violation) : Findings.Block := ⟨v.field, [v.rule]⟩

namespace Findings

theorem text_toBlock (v : Violation) : v.toBlock.text = v.block := by
  have mark : "':\n  - " = "':\n" ++ "  - " := rfl
  simp only [Violation.toBlock, Violation.block, Block.text, List.map_cons, List.map_nil, mark,
    String.join_cons, String.join_nil, String.append_empty, String.append_assoc]

theorem blocks_append (path : String) (a b : Findings) :
    blocks path (a ++ b) = blocks path a ++ blocks path b := by
  induction a with
  | nil => rfl
  | cons entry a ih =>
    obtain ⟨field, finding⟩ := entry
    simp [blocks, ih]

theorem itemBlocks_append (path : String) (a b : List (Nat × Findings)) :
    itemBlocks path (a ++ b) = itemBlocks path a ++ itemBlocks path b := by
  induction a with
  | nil => rfl
  | cons entry a ih =>
    obtain ⟨index, fields⟩ := entry
    simp [itemBlocks, ih]

theorem blocks_ofViolations {path : String} (inner : path.isEmpty = false)
    (violations : List Violation) :
    blocks path (ofViolations violations) =
      (violations.map (Violation.under path)).map Violation.toBlock := by
  induction violations with
  | nil => rfl
  | cons v violations ih =>
    simpa [ofViolations, blocks, blocksOf, join, inner, Violation.under, Violation.toBlock] using ih

theorem blocks_ofSection {name : String} (named : name.isEmpty = false)
    (violations : List Violation) :
    blocks "" (ofSection name violations) =
      (violations.map (Violation.under name)).map Violation.toBlock := by
  cases violations with
  | nil => rfl
  | cons v violations =>
    rw [← blocks_ofViolations named]
    simp [ofSection, blocks, blocksOf, join]

/-- The findings about settings have one block for each violation. -/
theorem blocks_findings (s : Settings) :
    blocks "" s.findings = s.violations.map Violation.toBlock := by
  simp only [Settings.findings, Settings.violations, blocks_append, List.map_append,
    blocks_ofSection (by decide : "capture".isEmpty = false),
    blocks_ofSection (by decide : "sink".isEmpty = false),
    blocks_ofSection (by decide : "telemetry".isEmpty = false)]

/-- The order of findings decides nothing but the order of the blocks. -/
theorem Shuffled.blocks_perm {a b : Findings} (shuffled : Shuffled a b) (path : String) :
    (blocks path a).Perm (blocks path b) := by
  induction shuffled generalizing path with
  | perm perm =>
    induction perm with
    | nil => exact .refl _
    | cons entry _ ih => exact ih.append_left _
    | swap first second others =>
      simp only [blocks, ← List.append_assoc]
      exact List.perm_append_comm.append_right _
    | trans _ _ first second => exact first.trans second
  | inside field others _ ih => exact (ih _).append_right _
  | item field index before after others _ ih =>
    refine List.Perm.append_right _ ?_
    simp only [blocksOf, itemBlocks_append, itemBlocks]
    exact ((ih _).append_right _).append_left _
  | trans _ _ first second => exact (first path).trans (second path)

end Findings

namespace Settings

variable {s : Settings}

/-- A report whose blocks are about the violations, in any order, is one with exactly the blocks
that it should have. -/
theorem reports_of_perm {blocks : List Findings.Block}
    (perm : blocks.Perm (s.violations.map Violation.toBlock)) :
    s.Reports ("Invalid configuration:\n" ++ String.join (blocks.map Findings.Block.text)) := by
  let entry (b : Findings.Block) : String × String := (b.path, String.join (b.rules.map Rule.code))
  have entries (path code : String) :
      (path, code) ∈ blocks.map entry ↔ Found s.violations path code := by
    rw [(perm.map entry).mem_iff, List.map_map]
    simp [Found, entry, Violation.toBlock]
  refine ⟨blocks.map entry, ?_, ?_, fun path code => (entries path code).trans found_iff⟩
  · rw [List.map_map]
    congr 2
    refine List.map_congr_left fun b mem => ?_
    obtain ⟨v, -, rfl⟩ := List.mem_map.1 (perm.mem_iff.1 mem)
    rw [Findings.text_toBlock]
    simp [entry, Violation.toBlock, Violation.block]
  · rw [List.map_map]
    have paths := perm.map Findings.Block.path
    rw [List.map_map] at paths
    exact paths.nodup_iff.2 s.nodup_violations

/-- **A report says what is wrong with settings, and nothing else.**  Settings are accepted exactly
when every field keeps its rule and the thresholds are in order.  Otherwise the report has exactly
one block for each field that breaks its rule, under the path of the field and with the name of the
rule, and one about the thresholds exactly when they are in disorder and no other field of their
section breaks a rule; and so has every report on the same findings in another order. -/
theorem report_of_settings (s : Settings) :
    (s.validated = .ok s ↔ s.KeepsRules) ∧
      (¬ s.KeepsRules → ∃ e, s.validated = .error e ∧ s.Reports e.message) ∧
      ∀ findings, Findings.Shuffled s.findings findings → s.Reports findings.report := by
  refine ⟨?_, fun broken => ?_, fun findings shuffled => ?_⟩
  · rw [← violations_eq_nil_iff_keepsRules, validated]
    split
    · next none => simp [none]
    · next some => simpa using some
  · have some : s.violations ≠ [] := mt violations_eq_nil_iff_keepsRules.1 broken
    refine ⟨.invalid s.violations, ?_, ?_⟩
    · unfold validated
      split
      · next none => exact absurd none some
      · rfl
    · have sorted := reports_of_perm (s := s) ((List.mergeSort_perm s.violations
        fun a b => decide (a.field ≤ b.field)).map Violation.toBlock)
      rw [List.map_map] at sorted
      have blocks : Findings.Block.text ∘ Violation.toBlock = Violation.block :=
        funext Findings.text_toBlock
      rwa [blocks] at sorted
  · refine reports_of_perm ?_
    rw [← Findings.blocks_findings]
    exact (shuffled.blocks_perm "").symm

/-- Settings that break rules in every section, with thresholds in disorder. -/
def tangled : Settings where
  capture := { sources := ["10.0.0.1:30003", "nowhere"], busCapacity := 0, hiccupMin := 20000 }
  sink := { filePrefix := "../a", flushInterval := 60001 }
  telemetry := { logLevel := "" }

/-- Also settings with many faults, found in the reverse order, have a report with one block for
each; there is none about the thresholds, whose disorder is hidden by the other faults. -/
theorem report_of_settings_tangled :
    ¬ tangled.KeepsRules ∧ (∃ e, tangled.validated = .error e ∧ tangled.Reports e.message) ∧
      tangled.Reports (Findings.report tangled.findings.reverse) ∧
      tangled.violations.map Violation.field =
        ["capture.sources", "capture.bus_capacity", "sink.prefix", "sink.flush_interval_ms",
          "telemetry.log_level"] := by
  obtain ⟨-, refused, shuffled⟩ := report_of_settings tangled
  have broken : ¬ tangled.KeepsRules := fun kept => absurd kept.thresholds (by decide)
  refine ⟨broken, refused broken, shuffled _ (.perm (List.reverse_perm _).symm), by decide +kernel⟩

end Settings

end FeedCapture
