/-!
# The command line

The program has two commands: `run` captures until it is told to stop, and `config` prints the
settings in effect.  Options are written `--name value`, `--name=value`, `-n value`, `-nvalue` or
`-n=value`.  A value that stands on its own must not look like an option.

Options are looked at from left to right.  The value of an option is taken in when the next option
begins or the line ends, so an unknown option after a bad value is reported before the value.

## Main definitions

* `Command` — what is to be done
* `CommandLine.Refusal` — why nothing is done, with its exit code
* `Command.ofArguments`
-/

namespace FeedCapture

/-- What the program is asked to do. -/
inductive Command where
  /-- Captures the sources, or those of the settings if none are given. -/
  | run (config : Option String) (sources : List String) (out : Option String)
  /-- Prints the settings. -/
  | config (config : Option String)
deriving DecidableEq, Repr

namespace CommandLine

/-- Why the program does nothing. -/
inductive Refusal where
  /-- Help is asked for, and shown. -/
  | help
  /-- The version is asked for, and shown. -/
  | version
  /-- There are no arguments, and help is shown. -/
  | helpWithoutArguments
  | unknownArgument
  | invalidSubcommand
  /-- An option is given twice. -/
  | argumentConflict
  /-- A value is missing, or empty where it must not be. -/
  | invalidValue
  /-- A value is given to an option that takes none. -/
  | tooManyValues
deriving DecidableEq, Repr

/-- The exit code of the program. -/
def Refusal.exitCode : Refusal → Nat
  | .help => 0
  | .version => 0
  | _ => 2

/-- An option that takes a value. -/
inductive Key where
  | config
  | source
  | out
deriving DecidableEq, Repr

/-- Everything that was taken in. -/
structure Taken where
  config : Option String := none
  sources : List String := []
  out : Option String := none
deriving DecidableEq, Repr

/-- Takes in the value of an option.  Paths are given once and are not empty. -/
def Taken.add (t : Taken) (key : Key) (value : String) : Except Refusal Taken :=
  match key with
  | .source => .ok { t with sources := t.sources ++ [value] }
  | .config =>
    if t.config.isSome then .error .argumentConflict
    else if value.isEmpty then .error .invalidValue
    else .ok { t with config := some value }
  | .out =>
    if t.out.isSome then .error .argumentConflict
    else if value.isEmpty then .error .invalidValue
    else .ok { t with out := some value }

/-- The options of a command. -/
structure Options where
  /-- The options that take a value: the letter, the name and what it sets. -/
  keys : List (Char × String × Key)

/-- The options of `run`. -/
def runOptions : Options :=
  ⟨[('c', "config", .config), ('s', "source", .source), ('o', "out", .out)]⟩

/-- The options of `config`. -/
def configOptions : Options := ⟨[('c', "config", .config)]⟩

/-- An option whose value is not taken in yet. -/
structure Pending where
  key : Key
  value : Option String

/-- Takes in the option that is pending, which must have a value. -/
def settle (t : Taken) : Option Pending → Except Refusal Taken
  | none => .ok t
  | some ⟨_, none⟩ => .error .invalidValue
  | some ⟨key, some value⟩ => t.add key value

/-- What one argument is. -/
inductive Shape where
  /-- Two hyphens: no options follow. -/
  | separator
  | long (name : String) (value : Option String)
  | short (letter : Char) (rest : String)
  | plain

/-- Tells what an argument is. -/
def shape (arg : String) : Shape :=
  match arg.toList with
  | ['-', '-'] => .separator
  | '-' :: '-' :: body =>
    let name := String.ofList (body.takeWhile fun c => c ≠ '=')
    match body.dropWhile fun c => c ≠ '=' with
    | '=' :: value => .long name (some (String.ofList value))
    | _ => .long name none
  | '-' :: letter :: rest => .short letter (String.ofList rest)
  | _ => .plain

/-- The value that is attached to a letter, if there is one. -/
def attached? (rest : String) : Option String :=
  match rest.toList with
  | [] => none
  | '=' :: value => some (String.ofList value)
  | _ => some rest

/-- Starts an option: what was pending is taken in, and an attached value at once. -/
def begin (t : Taken) (pending : Option Pending) (key : Key) (value : Option String) :
    Except Refusal (Taken × Option Pending) :=
  match settle t pending with
  | .error e => .error e
  | .ok t =>
    match value with
    | none => .ok (t, some ⟨key, none⟩)
    | some value => (t.add key value).map fun t => (t, none)

/-- Asks for help, after what was pending is taken in. -/
def askHelp (t : Taken) (pending : Option Pending) : Refusal :=
  match settle t pending with
  | .error e => e
  | .ok _ => .help

/-- Reads the arguments of a command. -/
def readOptions (options : Options) (t : Taken) (pending : Option Pending) :
    List String → Except Refusal Taken
  | [] => settle t pending
  | arg :: rest =>
    match shape arg with
    | .separator => if rest.isEmpty then settle t pending else .error .unknownArgument
    | .long "help" none => .error (askHelp t pending)
    | .long "help" (some _) => .error .tooManyValues
    | .long name value =>
      match options.keys.find? (fun k => k.2.1 = name) with
      | none => .error .unknownArgument
      | some (_, _, key) =>
        match begin t pending key value with
        | .error e => .error e
        | .ok (t, pending) => readOptions options t pending rest
    | .short 'h' _ => .error (askHelp t pending)
    | .short letter value =>
      match options.keys.find? (fun k => k.1 = letter) with
      | none => .error .unknownArgument
      | some (_, _, key) =>
        match begin t pending key (attached? value) with
        | .error e => .error e
        | .ok (t, pending) => readOptions options t pending rest
    | .plain =>
      match pending with
      | some ⟨key, none⟩ => readOptions options t (some ⟨key, some arg⟩) rest
      | _ => .error .unknownArgument

/-- The names of the commands. -/
def commandNames : List String := ["run", "config", "help"]

/-- What a request for help leads to; a command that is named must be known. -/
def helpOn : List String → Refusal
  | [] => .help
  | [name] => if name ∈ commandNames then .help else .invalidSubcommand
  | _ => .invalidSubcommand

/-- What arguments after two hyphens lead to, when a command is expected. -/
def afterSeparator : List String → Refusal
  | [] => .helpWithoutArguments
  | arg :: _ => if arg ∈ commandNames then .unknownArgument else .invalidSubcommand

end CommandLine

open CommandLine

/-- The command that the arguments of the program describe. -/
def Command.ofArguments : List String → Except Refusal Command
  | [] => .error .helpWithoutArguments
  | "run" :: rest =>
    (readOptions runOptions {} none rest).map fun t => .run t.config t.sources t.out
  | "config" :: rest => (readOptions configOptions {} none rest).map fun t => .config t.config
  | "help" :: rest => .error (helpOn rest)
  | arg :: rest =>
    .error
      (match shape arg with
      | .separator => afterSeparator rest
      | .long "help" none => .help
      | .long "version" none => .version
      | .long "help" (some _) => .tooManyValues
      | .long "version" (some _) => .tooManyValues
      | .long _ _ => .unknownArgument
      | .short 'h' _ => .help
      | .short 'V' _ => .version
      | .short _ _ => .unknownArgument
      | .plain => .invalidSubcommand)

end FeedCapture
