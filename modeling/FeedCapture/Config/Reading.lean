import FeedCapture.Config.Settings
import FeedCapture.Size

/-!
# Reading settings from a document

Each section is a map from the names of its fields, or a list of its fields in order; what is
missing keeps its default value, and what is unknown is passed over.  The fields of a map are read
in the order of their names and the first one that does not fit is reported, with the way to it.

## Main definitions

* `Misfit`, `Misfit.Cause` — what does not fit, and where
* `CaptureSettings.ofDocument`, `Settings.ofDocument`
-/

namespace FeedCapture

/-- What keeps a value from being taken. -/
inductive Misfit.Cause where
  /-- It is something else than was expected. -/
  | wrongType (found : Document) (expected : String)
  /-- It is a number that the expected type does not hold. -/
  | outOfRange (found : Int) (expected : String)
  /-- It is none of the forms that a size can have. -/
  | noSize
  /-- It is a text that does not describe a size. -/
  | badSize (e : Size.Malformed)

/-- A value that does not fit, with the keys on the way to it. -/
structure Misfit where
  path : List String
  cause : Misfit.Cause

namespace Config

/-- A misfit of the value itself. -/
def misfit {α : Type} (cause : Misfit.Cause) : Except Misfit α := .error ⟨[], cause⟩

/-- A misfit seen from outside the key. -/
def at_ {α : Type} (key : String) (result : Except Misfit α) : Except Misfit α :=
  match result with
  | .ok a => .ok a
  | .error m => .error { m with path := key :: m.path }

/-! ## Values -/

/-- Reads a number of at most 64 bits. -/
def word (expected : String) : Document → Except Misfit Nat
  | .int n =>
    if (UInt64.size : Int) ≤ n ∨ n < Int64.minValue.toInt then misfit (.wrongType (.int n) expected)
    else if n < 0 then misfit (.outOfRange n expected)
    else .ok n.toNat
  | .minusZero => .ok 0
  | d => misfit (.wrongType d expected)

/-- Reads a truth value. -/
def flag : Document → Except Misfit Bool
  | .bool b => .ok b
  | d => misfit (.wrongType d "a boolean")

/-- Reads a text; a single character is one. -/
def text (expected : String) : Document → Except Misfit String
  | .text s => .ok s
  | .char c => .ok (String.singleton c)
  | d => misfit (.wrongType d expected)

/-- Reads texts, each under its number in the list. -/
def textsFrom (index : Nat) : List Document → Except Misfit (List String)
  | [] => .ok []
  | d :: rest =>
    match at_ (Nat.repr index) (text "a string" d) with
    | .error m => .error m
    | .ok s => (textsFrom (index + 1) rest).map (s :: ·)

/-- Reads a list of texts. -/
def texts : Document → Except Misfit (List String)
  | .list items => textsFrom 0 items
  | d => misfit (.wrongType d "a sequence")

/-- Reads a number of bytes, or a text that describes one. -/
def size : Document → Except Misfit Nat
  | .int n =>
    if (UInt64.size : Int) ≤ n ∨ n < Int64.minValue.toInt then
      misfit (.wrongType (.int n) "any value")
    else if n < 0 then misfit .noSize
    else .ok n.toNat
  | .minusZero => .ok 0
  | .text s =>
    match Size.parse s.toList with
    | .ok n => .ok n
    | .error e => misfit (.badSize e)
  | _ => misfit .noSize

/-! ## Sections -/

/-- A field of a section: its name, and what a value for it does to the section. -/
structure Field (σ : Type) where
  name : String
  read : Document → σ → Except Misfit σ

/-- A field whose values are read by `value` and stored by `store`. -/
def field {σ α : Type} (name : String) (value : Document → Except Misfit α) (store : α → σ → σ) :
    Field σ where
  name
  read d s := (value d).map fun a => store a s

variable {σ : Type}

/-- Reads the fields that a map has, one after the other. -/
def readEntries (entries : List (String × Document)) : List (Field σ) → σ → Except Misfit σ
  | [], s => .ok s
  | f :: fields, s =>
    match Document.lookup entries f.name with
    | none => readEntries entries fields s
    | some d =>
      match at_ f.name (f.read d s) with
      | .ok s => readEntries entries fields s
      | .error m => .error m

/-- Reads the fields that a list gives, in order; the first has the number `index`. -/
def readItems (index : Nat) : List (Field σ) → List Document → σ → Except Misfit σ
  | f :: fields, d :: items, s =>
    match at_ (Nat.repr index) (f.read d s) with
    | .ok s => readItems (index + 1) fields items s
    | .error m => .error m
  | _, _, s => .ok s

/-- Reads a section over its default values.  The fields are given in their order. -/
def readSection (expected : String) (fields : List (Field σ)) (default : σ) :
    Document → Except Misfit σ
  | .map entries => readEntries entries (fields.mergeSort fun a b => a.name ≤ b.name) default
  | .list items => readItems 0 fields items default
  | d => misfit (.wrongType d expected)

/-- The fields of the capture section. -/
def captureFields : List (Field CaptureSettings) :=
  [field "sources" texts fun a s => { s with sources := a },
    field "bus_capacity" (word "usize") fun a s => { s with busCapacity := a },
    field "reconnect_delay_ms" (word "u64") fun a s => { s with reconnectDelay := a },
    field "read_deadline_ms" (word "u64") fun a s => { s with readDeadline := a },
    field "idle_timeout_ms" (word "u64") fun a s => { s with idleTimeout := a },
    field "keepalive_period_ms" (word "u64") fun a s => { s with keepalivePeriod := a },
    field "nodelay" flag fun a s => { s with nodelay := a },
    field "read_buffer_size" size fun a s => { s with readBufferSize := a },
    field "hiccup_min_ms" (word "u64") fun a s => { s with hiccupMin := a },
    field "reestablished_after_ms" (word "u64") fun a s => { s with reestablishedAfter := a }]

/-- The fields of the sink section. -/
def sinkFields : List (Field SinkSettings) :=
  [field "directory" (text "path string") fun a s => { s with directory := a },
    field "prefix" (text "a string") fun a s => { s with filePrefix := a },
    field "flush_interval_ms" (word "u64") fun a s => { s with flushInterval := a },
    field "compress" flag fun a s => { s with compress := a }]

/-- The fields of the telemetry section. -/
def telemetryFields : List (Field TelemetrySettings) :=
  [field "log_level" (text "a string") fun a s => { s with logLevel := a }]

end Config

open Config

/-- Reads the capture section. -/
def CaptureSettings.ofDocument (d : Document) : Except Misfit CaptureSettings :=
  readSection "struct CaptureConfig" captureFields {} d

/-- Reads the sink section. -/
def SinkSettings.ofDocument (d : Document) : Except Misfit SinkSettings :=
  readSection "struct SinkConfig" sinkFields {} d

/-- Reads the telemetry section. -/
def TelemetrySettings.ofDocument (d : Document) : Except Misfit TelemetrySettings :=
  readSection "struct TelemetryConfig" telemetryFields {} d

/-- Reads all sections. -/
def Settings.ofDocument (d : Document) : Except Misfit Settings :=
  readSection "struct TrackfeedConfig"
    [field "capture" CaptureSettings.ofDocument fun a s => { s with capture := a },
      field "sink" SinkSettings.ofDocument fun a s => { s with sink := a },
      field "telemetry" TelemetrySettings.ofDocument fun a s => { s with telemetry := a }]
    {} d

end FeedCapture
