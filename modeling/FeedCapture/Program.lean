import FeedCapture.CommandLine
import FeedCapture.Config.Layer
import FeedCapture.Drain
import FeedCapture.Log.Filter
import FeedCapture.Session
import FeedCapture.Yaml.Printer

/-!
# The program

What the program does for a command: it prints the settings, or it captures until it is told to
stop.  A capture is a supervisor, whose messages are drained into day files.

## Main definitions

* `Program.prepare` — what a command comes to, as far as it depends on settings only
* `Program.rehearse` — a whole capture in virtual time, over a planned network
-/

namespace FeedCapture.Program

/-- Why a command is not carried out. -/
inductive Failure where
  | settings (e : LoadError)
  | filter (message : String)
  | supervisor (e : Supervisor.Refusal)

/-- The wording of each reason. -/
def Failure.message : Failure → String
  | .settings e => e.message
  | .filter message => message
  | .supervisor e => e.message

/-- What a command comes to. -/
inductive Plan where
  | print (text : String)
  | capture (settings : Settings)

/-- Loads the settings from a file that is named, or from the usual places. -/
def loadSettings (files : Files) (env : Environment) (path : Option String) :
    Except LoadError Settings :=
  match path with
  | some path => Settings.loadFrom files env path
  | none => Settings.load files env

/-- The settings for a capture: those that are loaded, with the sources and the directory that the
command names in the place of theirs. -/
def captureSettings (files : Files) (env : Environment) (path : Option String)
    (sources : List String) (out : Option String) : Except LoadError Settings :=
  match loadSettings files env path with
  | .error e => .error e
  | .ok s =>
    match if sources.isEmpty then .ok s else s.withSources sources with
    | .error e => .error e
    | .ok s => .ok { s with sink := { s.sink with directory := out.getD s.sink.directory } }

/-- Works out what a command comes to.  For a capture the log filter must be well-formed and the
policy one that workers can obey. -/
def prepare (files : Files) (env : Environment) : Command → Except Failure Plan
  | .config path =>
    match loadSettings files env path with
    | .error e => .error (.settings e)
    | .ok s => .ok (.print (Yaml.print s.entries))
  | .run path sources out =>
    match captureSettings files env path sources out with
    | .error e => .error (.settings e)
    | .ok s =>
      match Log.Filter.choose s.telemetry.logLevel (env.lookup "RUST_LOG") with
      | .error message => .error (.filter message)
      | .ok _ =>
        match Supervisor.create s.capture.sources s.capture.policy {} true with
        | .error e => .error (.supervisor e)
        | .ok _ => .ok (.capture s)

/-! ## Captures -/

/-- The day files that the settings describe. -/
def dayFiles (tree : FileTree) (s : SinkSettings) : DayFiles :=
  { tree, directory := s.directory, filePrefix := s.filePrefix, compress := s.compress }

/-- The messages among receipts. -/
def messagesOf (receipts : List Session.Receipt) : List (Instant × Message) :=
  receipts.filterMap fun r => r.2.map fun m => (r.1, m)

/-- A whole capture: the session at its end, and how its messages were drained. -/
structure Rehearsal where
  session : Session
  drained : Drain.Trace DayFiles DayFiles.Failure

/-- Captures over a planned network from the start of the clock until the shutdown, and drains the
messages into day files.  The choices decide what comes first when a message and a tick of the flush
timer are both there. -/
def rehearse (s : Settings) (network : Network) (tree : FileTree) (shutdown : Instant)
    (choices : Nat → Bool) : Except Failure Rehearsal :=
  match Supervisor.create s.capture.sources s.capture.policy network true with
  | .error e => .error (.supervisor e)
  | .ok supervisor =>
    let start : Session := { capture := .supervised supervisor, consumer := .prompt }
    let (session, _) := start.run [(0, .start), (shutdown, .stop)]
    .ok
      { session
        drained :=
          Drain.run DayFiles.sink (dayFiles tree s.sink)
            { period := Duration.millis s.sink.flushInterval } choices
            (messagesOf session.received) session.now }

end FeedCapture.Program
