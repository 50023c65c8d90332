import FeedCapture.Log
import FeedCapture.Text.Alphanumeric
import FeedCapture.Text.Blank

/-!
# Log filters

A filter says which reports are shown.  It is a list of directives with commas between them; a
directive names a target, a span with fields in square brackets, and after an equals sign a level,
and each of these may be missing.  Here only the form of a filter is looked at.

The pieces of a directive are found in its text without the white space at its ends, but the level
is cut out of the text as it is written, from the same position on.  So a level after white space at
the start of the directive, or before white space at its end, is not one.

## Main definitions

* `Log.Filter.check` — the filter is well-formed, or the reason why it is not
* `Log.Filter.choose` — the filter in effect when the environment may name another one
* `Log.Filter.verbosity` — how far down the levels a filter goes
-/

namespace FeedCapture.Log.Filter

/-- Why a filter is not well-formed. -/
inductive Malformed where
  | directive
  | level
deriving DecidableEq, Repr

/-- The wording of each reason. -/
def Malformed.message : Malformed → String
  | .directive => "invalid filter directive"
  | .level =>
    "error parsing level filter: expected one of \"off\", \"error\", \"warn\", \"info\", " ++
      "\"debug\", \"trace\", or a number 0-5"

/-- The text is a number from 0 to 5, possibly with a plus sign and zeros before it. -/
def isLevelNumber (text : List Char) : Bool :=
  let digits := match text with
    | '+' :: rest => rest
    | _ => text
  !digits.isEmpty && digits.all Char.isDigit &&
    match digits.dropWhile (fun c => c = '0') with
    | [] => true
    | [c] => c ≤ '5'
    | _ => false

/-- The text is a level: a number, a name in any case, or nothing, which is the highest level. -/
def isLevel (text : List Char) : Bool :=
  isLevelNumber text ||
    String.ofList (text.map Char.toLower) ∈ ["", "off", "error", "warn", "info", "debug", "trace"]

/-- The character can start a directive. -/
def startsName (c : Char) : Bool := c = '-' || c = ':' || c = '_' || Text.isAlphanumeric c

/-- Checks what follows the equals sign; `trimmed` and `rest` give its position in the text. -/
def checkLevel (given trimmed rest : List Char) : Except Malformed Unit :=
  if isLevel (given.drop (trimmed.length - rest.length)) then .ok () else .error .level

/-- Checks what follows a span: nothing, or a level. -/
def checkAfterSpan (given trimmed : List Char) : List Char → Except Malformed Unit
  | [] => .ok ()
  | '=' :: rest => checkLevel given trimmed rest
  | _ => .error .directive

/-- Checks what follows the opening bracket of a span: a name, and possibly one field in braces. -/
def checkSpan (given trimmed rest : List Char) : Except Malformed Unit :=
  match rest.dropWhile (fun c => c ≠ ']' && c ≠ '{') with
  | ']' :: rest => checkAfterSpan given trimmed rest
  | _ :: rest =>
    if (rest.takeWhile (fun c => c ≠ '}')).isEmpty then .error .directive
    else
      match rest.dropWhile (fun c => c ≠ '}') with
      | '}' :: ']' :: rest => checkAfterSpan given trimmed rest
      | _ => .error .directive
  | [] => .error .directive

/-- Checks one directive. -/
def checkDirective (given : List Char) : Except Malformed Unit :=
  let trimmed := Text.trim given
  match trimmed with
  | [] => .error .directive
  | '[' :: rest => checkSpan given trimmed rest
  | c :: rest =>
    if !startsName c then .error .directive
    else
      match rest.dropWhile (fun c => c ≠ '=' && c ≠ '[') with
      | [] => .ok ()
      | '=' :: rest => checkLevel given trimmed rest
      | _ :: rest => checkSpan given trimmed rest

/-- The parts between the commas that are not empty. -/
def directives (text : String) : List (List Char) :=
  ((text.splitOn ",").filter fun part => part ≠ "").map String.toList

/-- Accepts a filter whose directives are all well-formed; otherwise gives what is wrong with the
first that is not. -/
def check (text : String) : Except Malformed Unit :=
  (directives text).forM checkDirective

/-- The filter is well-formed. -/
def accepts (text : String) : Bool :=
  match check text with
  | .ok _ => true
  | .error _ => false

/-- The message for a filter that is not well-formed. -/
def message (text : String) (e : Malformed) : String :=
  "Invalid log filter '" ++ text ++ "': " ++ e.message

/-- The filter in effect: the one from the environment if it is well-formed, and otherwise the
configured one, which then has to be. -/
def choose (configured : String) (fromEnvironment : Option String) : Except String String :=
  match fromEnvironment with
  | some text =>
    if accepts text then .ok text
    else
      match check configured with
      | .ok _ => .ok configured
      | .error e => .error (message configured e)
  | none =>
    match check configured with
    | .ok _ => .ok configured
    | .error e => .error (message configured e)

/-! ## The levels that are shown -/

/-- The verbosity that a well-formed level stands for. -/
def levelVerbosity (text : List Char) : Nat :=
  match String.ofList (text.map Char.toLower) with
  | "off" => 0
  | "error" => 1
  | "warn" => 2
  | "info" => 3
  | "debug" => 4
  | name => (name.toNat?).getD 5

/-- The verbosity of a directive: that of its level, which may stand alone.  A directive that has no
level shows everything. -/
def directiveVerbosity (text : List Char) : Nat :=
  let trimmed := Text.trim text
  if isLevel trimmed then levelVerbosity trimmed
  else levelVerbosity (trimmed.reverse.takeWhile (fun c => c ≠ '=')).reverse

/-- The verbosity of a filter: the highest among its directives.  The empty filter shows errors. -/
def verbosity (text : String) : Nat :=
  match (directives text).map directiveVerbosity with
  | [] => 1
  | first :: rest => rest.foldl max first

end FeedCapture.Log.Filter
