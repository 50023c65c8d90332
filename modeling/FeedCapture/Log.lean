/-!
# Log entries

What the program reports about its own work: a level, a message and named fields.

## Main definitions

* `Log.Level`, `Log.Entry`
-/

namespace FeedCapture.Log

/-- How much an entry matters, from least to most. -/
inductive Level where
  | trace
  | debug
  | info
  | warn
  | error
deriving DecidableEq, Repr

/-- The name of a level. -/
def Level.name : Level → String
  | .trace => "TRACE"
  | .debug => "DEBUG"
  | .info => "INFO"
  | .warn => "WARN"
  | .error => "ERROR"

/-- The place of a level in the order from most to least. -/
def Level.verbosity : Level → Nat
  | .error => 1
  | .warn => 2
  | .info => 3
  | .debug => 4
  | .trace => 5

/-- The value of a field. -/
inductive Value where
  | number (n : Nat)
  | text (s : String)
deriving DecidableEq, Repr

/-- One report. -/
structure Entry where
  level : Level
  message : String
  fields : List (String × Value) := []
deriving DecidableEq, Repr

/-- A field on a line: its name and its value. -/
def renderField : String × Value → String
  | (name, .number n) => name ++ "=" ++ Nat.repr n
  | (name, .text s) => name ++ "=" ++ s

/-- An entry on a line of its own. -/
def Entry.line (e : Entry) : String :=
  " ".intercalate (e.level.name :: e.message :: e.fields.map renderField)

end FeedCapture.Log
