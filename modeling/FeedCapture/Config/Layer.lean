import FeedCapture.Config.Reading
import FeedCapture.Config.Variable
import FeedCapture.FileTree
import FeedCapture.Text.Escaped
import FeedCapture.Yaml.Value

/-!
# Loading settings in layers

Settings come from files and from the environment.  A higher layer wins over a lower one for the
settings that it gives, and what no layer gives keeps its default value.

## Main definitions

* `Files` — the files that settings are looked for in
* `Layer`, `Layer.originOf` — where the value at the end of a way comes from
* `Settings.resolve` — the settings that layers describe
* `Settings.load`, `Settings.loadFrom`
* `LoadError` — why there are no settings, with `LoadError.message`
-/

namespace FeedCapture

/-- What paths lead to. -/
abbrev Files := String → Option FileTree.Node

/-- Where a layer comes from. -/
inductive Origin where
  | file (name : String)
  | environment
deriving DecidableEq, Repr

/-- Settings from one place. -/
structure Layer where
  origin : Origin
  document : Document

/-- Why settings cannot be loaded. -/
inductive LoadError where
  | fileNotFound (path : String)
  /-- A file is not well-formed, or is not a map. -/
  | malformed
  | misfit (m : Misfit) (origin : Origin)
  | invalid (violations : List Violation)

/-! ## Wording -/

/-- A whole number and the type it has. -/
def Document.describeInteger (n : Int) : String :=
  if (UInt64.size : Int) ≤ n then "integer \x60" ++ toString n ++ "\x60 as u128"
  else if n < Int64.minValue.toInt then "integer \x60" ++ toString n ++ "\x60 as i128"
  else if n < 0 then "signed int \x60" ++ toString n ++ "\x60"
  else "unsigned int \x60" ++ toString n ++ "\x60"

/-- What a document is, in a few words. -/
def Document.describe : Document → String
  | .null => "unit"
  | .bool b => "bool " ++ (if b then "true" else "false")
  | .int n => describeInteger n
  | .minusZero => "signed int \x600\x60"
  | .float x => "float \x60" ++ x.render ++ "\x60"
  | .text s => "string " ++ Text.escaped s
  | .char c => "string " ++ Text.escaped (String.singleton c)
  | .list _ => "sequence"
  | .map _ => "map"

namespace Misfit

/-- The wording when no form of a size fits. -/
def noSizeText : String := "data did not match any variant of untagged enum SizeValue"

/-- The wording of each cause. -/
def Cause.message : Cause → String
  | .wrongType found expected =>
    "invalid type: found " ++ found.describe ++ ", expected " ++ expected
  | .outOfRange found expected =>
    "invalid value " ++ Document.describeInteger found ++ ", expected " ++ expected
  | .noSize => noSizeText
  | .badSize e => e.message

end Misfit

/-- The place that a misfit is in. -/
def Origin.locate (path : List String) : Origin → String
  | .file name =>
    " for key " ++ Text.escaped (".".intercalate ("default" :: path)) ++ " in " ++ name ++
      " YAML file"
  | .environment =>
    " for key " ++ Text.escaped (".".intercalate (path.map fun key => key.map Char.toUpper)) ++
      " in \x60" ++ Config.variablePrefix ++ "\x60 environment variable(s)"

/-- The wording of each reason.  For a malformed file nothing more is said. -/
def LoadError.message : LoadError → String
  | .fileNotFound path => "Configuration file not found: " ++ path
  | .malformed => "Configuration parsing error"
  | .misfit m origin =>
    "Configuration parsing error: " ++ m.cause.message ++ origin.locate m.path
  | .invalid violations => Violation.report violations

/-! ## Layers -/

namespace Layer

/-- One document for all layers, the lowest first. -/
def combined (layers : List Layer) : Document :=
  layers.foldl (fun d layer => d.merge layer.document) (.map [])

/-- The highest layer that has something at the end of the way. -/
def originOf (layers : List Layer) (path : List String) : Origin :=
  match layers.reverse.find? (fun layer => layer.document.has path) with
  | some layer => layer.origin
  | none => .environment

/-- The name of a file in messages: its path without single points. -/
def shownName (path : String) : String :=
  "/".intercalate ((FileTree.names path).filter fun name => name ≠ ".")

/-- The layer of a file; a directory gives none. -/
def ofFile (files : Files) (path : String) : Except LoadError (List Layer) :=
  match files path with
  | some (.file content) =>
    match (String.fromUTF8? ⟨content.toArray⟩).bind Yaml.readMap? with
    | some entries => .ok [⟨.file (shownName path), .map entries⟩]
    | none => .error .malformed
  | _ => .ok []

/-- The layer of the environment. -/
def ofEnvironment (env : Environment) : Layer := ⟨.environment, Config.variableDocument env⟩

end Layer

namespace Settings

/-- Accepts settings that keep every rule. -/
def validated (s : Settings) : Except LoadError Settings :=
  match s.violations with
  | [] => .ok s
  | found => .error (.invalid found)

/-- The settings that layers describe, the lowest layer first. -/
def resolve (layers : List Layer) : Except LoadError Settings :=
  match Settings.ofDocument (Layer.combined layers) with
  | .ok s => s.validated
  | .error m => .error (.misfit m (Layer.originOf layers m.path))

/-- The file that is always looked for. -/
def baseFile : String := "config/trackfeed.yaml"

/-- The file of the environment that is selected by `TRACKFEED_ENV`. -/
def environmentFile (env : Environment) : String :=
  "config/" ++ (env.lookup "TRACKFEED_ENV").getD "production" ++ ".yaml"

/-- Loads settings from the usual files, as far as they are there, and the environment. -/
def load (files : Files) (env : Environment) : Except LoadError Settings :=
  match Layer.ofFile files baseFile with
  | .error e => .error e
  | .ok base =>
    match Layer.ofFile files (environmentFile env) with
    | .error e => .error e
    | .ok selected => resolve (base ++ selected ++ [Layer.ofEnvironment env])

/-- Loads settings from a file, which has to be there, and the environment. -/
def loadFrom (files : Files) (env : Environment) (path : String) : Except LoadError Settings :=
  if (files path).isNone then .error (.fileNotFound path)
  else
    match Layer.ofFile files path with
    | .error e => .error e
    | .ok layers => resolve (layers ++ [Layer.ofEnvironment env])

/-- The settings with other sources, if they keep every rule. -/
def withSources (s : Settings) (sources : List String) : Except LoadError Settings :=
  validated { s with capture := { s.capture with sources } }

end Settings

end FeedCapture
