import FeedCapture.Document
import FeedCapture.Policy
import FeedCapture.SourceAddress

/-!
# Settings

What can be configured, in three sections, and the rules that settings have to keep.

## Main definitions

* `Settings`, with `CaptureSettings`, `SinkSettings` and `TelemetrySettings`, and default values
* `Settings.violations`, `Violation.report` — the rules that are broken, and their listing
* `CaptureSettings.policy` — the capture policy that the settings describe
* `Settings.entries` — the settings as the entries of a document
-/

namespace FeedCapture

/-- What is captured, and with which timing.  Spans of time are in milliseconds. -/
structure CaptureSettings where
  sources : List String := []
  busCapacity : Nat := 1000
  reconnectDelay : Nat := 5000
  readDeadline : Nat := 2000
  idleTimeout : Nat := 3000
  keepalivePeriod : Nat := 2000
  nodelay : Bool := true
  readBufferSize : Nat := 1024
  hiccupMin : Nat := 100
  reestablishedAfter : Nat := 10000
deriving DecidableEq, Repr

/-- Where records are written. -/
structure SinkSettings where
  directory : String := "data"
  filePrefix : String := "tracking"
  /-- The longest time in milliseconds that a record stays in the buffer. -/
  flushInterval : Nat := 100
  compress : Bool := true
deriving DecidableEq, Repr

/-- What is reported. -/
structure TelemetrySettings where
  logLevel : String := "info"
deriving DecidableEq, Repr

/-- All settings. -/
structure Settings where
  capture : CaptureSettings := {}
  sink : SinkSettings := {}
  telemetry : TelemetrySettings := {}
deriving DecidableEq, Repr

/-! ## Rules -/

/-- The rules for a setting. -/
inductive Settings.Rule where
  /-- A number lies within its bounds. -/
  | range
  /-- A text is not empty. -/
  | length
  /-- Every source has a host and a port. -/
  | sourceAddress
  /-- A file prefix is a plain piece of a file name. -/
  | filePrefix
  /-- The hiccup threshold lies below the other one. -/
  | thresholdOrder
deriving DecidableEq, Repr

/-- The name of a rule in reports. -/
def Settings.Rule.code : Settings.Rule → String
  | .range => "range"
  | .length => "length"
  | .sourceAddress => "invalid_source_address"
  | .filePrefix => "invalid_file_prefix"
  | .thresholdOrder => "hiccup_threshold_not_below_reestablished"

/-- A rule that is broken, and the setting that breaks it. -/
structure Violation where
  field : String
  rule : Settings.Rule
deriving DecidableEq, Repr

namespace Violation

/-- The same violation seen from outside a section. -/
def under (name : String) (v : Violation) : Violation := { v with field := name ++ "." ++ v.field }

/-- The lines that report a violation. -/
def block (v : Violation) : String := "Field '" ++ v.field ++ "':\n  - " ++ v.rule.code ++ "\n"

/-- The report of all violations, in the order of their fields. -/
def report (violations : List Violation) : String :=
  "Invalid configuration:\n" ++
    String.join ((violations.mergeSort fun a b => a.field ≤ b.field).map block)

end Violation

/-- The violation of a rule by a field, unless the rule is kept. -/
def Settings.require (field : String) (rule : Settings.Rule) (kept : Bool) : List Violation :=
  if kept then [] else [⟨field, rule⟩]

/-- The number lies between two bounds, ends included. -/
def Settings.within (low high n : Nat) : Bool := low ≤ n && n ≤ high

namespace CaptureSettings

open Settings (require within)

/-- The rules for single fields that are broken. -/
def fieldViolations (s : CaptureSettings) : List Violation :=
  require "sources" .sourceAddress (SourceAddress.allValid s.sources) ++
  require "bus_capacity" .range (within 1 1048576 s.busCapacity) ++
  require "reconnect_delay_ms" .range (within 1 3600000 s.reconnectDelay) ++
  require "read_deadline_ms" .range (within 1 600000 s.readDeadline) ++
  require "idle_timeout_ms" .range (within 1 3600000 s.idleTimeout) ++
  require "keepalive_period_ms" .range (within 1000 3600000 s.keepalivePeriod) ++
  require "read_buffer_size" .range (within 64 1048576 s.readBufferSize)

/-- The rules that are broken.  The order of the thresholds is looked at only when every field keeps
its own rule. -/
def violations (s : CaptureSettings) : List Violation :=
  match s.fieldViolations with
  | [] => require "__all__" .thresholdOrder (s.hiccupMin < s.reestablishedAfter)
  | found => found

/-- The capture policy that the settings describe. -/
def policy (s : CaptureSettings) : Policy where
  busCapacity := s.busCapacity
  reconnectDelay := Duration.millis s.reconnectDelay
  readDeadline := Duration.millis s.readDeadline
  idleTimeout := Duration.millis s.idleTimeout
  keepalivePeriod := Duration.millis s.keepalivePeriod
  nodelay := s.nodelay
  readBufferSize := s.readBufferSize
  outage :=
    { hiccupMin := Duration.millis s.hiccupMin
      reestablishedAfter := Duration.millis s.reestablishedAfter }

/-- The settings as the entries of a document. -/
def entries (s : CaptureSettings) : List (String × Document) :=
  [("sources", .list (s.sources.map .text)),
    ("bus_capacity", .int s.busCapacity),
    ("reconnect_delay_ms", .int s.reconnectDelay),
    ("read_deadline_ms", .int s.readDeadline),
    ("idle_timeout_ms", .int s.idleTimeout),
    ("keepalive_period_ms", .int s.keepalivePeriod),
    ("nodelay", .bool s.nodelay),
    ("read_buffer_size", .int s.readBufferSize),
    ("hiccup_min_ms", .int s.hiccupMin),
    ("reestablished_after_ms", .int s.reestablishedAfter)]

end CaptureSettings

namespace SinkSettings

open Settings (require within)

/-- The text is a plain piece of a file name: ASCII letters, digits, underscores, hyphens and
points, and at least one of them. -/
def isFilePrefix (text : List Char) : Bool :=
  !text.isEmpty && text.all fun c => c.isAlphanum || c = '_' || c = '-' || c = '.'

theorem isFilePrefix_iff {text : String} : isFilePrefix text.toList = true ↔
    text ≠ "" ∧ ∀ c ∈ text.toList, c.isAlphanum = true ∨ c = '_' ∨ c = '-' ∨ c = '.' := by
  simp [isFilePrefix, or_assoc]

/-- The rules that are broken. -/
def violations (s : SinkSettings) : List Violation :=
  require "prefix" .filePrefix (isFilePrefix s.filePrefix.toList) ++
  require "flush_interval_ms" .range (within 1 60000 s.flushInterval)

/-- The settings as the entries of a document. -/
def entries (s : SinkSettings) : List (String × Document) :=
  [("directory", .text s.directory),
    ("prefix", .text s.filePrefix),
    ("flush_interval_ms", .int s.flushInterval),
    ("compress", .bool s.compress)]

end SinkSettings

namespace TelemetrySettings

/-- The rules that are broken. -/
def violations (s : TelemetrySettings) : List Violation :=
  Settings.require "log_level" .length (!s.logLevel.isEmpty)

/-- The settings as the entries of a document. -/
def entries (s : TelemetrySettings) : List (String × Document) := [("log_level", .text s.logLevel)]

end TelemetrySettings

namespace Settings

/-- The rules that are broken, each under the name of its section. -/
def violations (s : Settings) : List Violation :=
  s.capture.violations.map (Violation.under "capture") ++
  s.sink.violations.map (Violation.under "sink") ++
  s.telemetry.violations.map (Violation.under "telemetry")

/-- The settings as the entries of a document. -/
def entries (s : Settings) : List (String × Document) :=
  [("capture", .map s.capture.entries),
    ("sink", .map s.sink.entries),
    ("telemetry", .map s.telemetry.entries)]

end Settings

end FeedCapture
