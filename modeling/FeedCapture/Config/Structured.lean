import FeedCapture.Config.Layer

/-!
# The capture section as structured data

Reading the capture section from a JSON document on its own.  The rules for its fields are the usual
ones, a list must not be longer than the section has fields, and misfits are worded in the terms of
JSON.

## Main definitions

* `CaptureSettings.ofJson`
-/

namespace FeedCapture

/-- What a JSON value is, in a few words. -/
def Document.describeJson : Document → String
  | .null => "null"
  | .bool b => "boolean \x60" ++ (if b then "true" else "false") ++ "\x60"
  | .int n => "integer \x60" ++ toString n ++ "\x60"
  | .minusZero => "integer \x600\x60"
  | .float x => "floating point \x60" ++ x.renderScientific ++ "\x60"
  | .text s => "string " ++ Text.escaped s
  | .char c => "string " ++ Text.escaped (String.singleton c)
  | .list _ => "sequence"
  | .map _ => "map"

/-- The wording of each cause in the terms of JSON. -/
def Misfit.Cause.jsonMessage : Misfit.Cause → String
  | .wrongType found expected => "invalid type: " ++ found.describeJson ++ ", expected " ++ expected
  | .outOfRange found expected =>
    "invalid value: " ++ (Document.int found).describeJson ++ ", expected " ++ expected
  | .noSize => Misfit.noSizeText
  | .badSize e => e.message

/-- Why a JSON value is no capture section. -/
inductive StructureError where
  | misfit (m : Misfit)
  | tooManyItems (count : Nat)

/-- The wording of each reason. -/
def StructureError.message : StructureError → String
  | .misfit m => m.cause.jsonMessage
  | .tooManyItems count =>
    "invalid length " ++ Nat.repr count ++ ", expected fewer elements in array"

/-- The document is a list with more items than the section has fields. -/
def CaptureSettings.tooManyItems? : Document → Option Nat
  | .list items => if Config.captureFields.length < items.length then some items.length else none
  | _ => none

/-- Reads the capture section from a JSON value. -/
def CaptureSettings.ofJson (d : Document) : Except StructureError CaptureSettings :=
  match CaptureSettings.ofDocument d with
  | .error m => .error (.misfit m)
  | .ok s =>
    match tooManyItems? d with
    | some count => .error (.tooManyItems count)
    | none => .ok s

end FeedCapture
