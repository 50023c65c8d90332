import FeedCapture.DayFiles.Run
import FeedCapture.Live
import FeedCapture.Metrics.Exposition
import FeedCapture.Program
import Std.Async.DNS
import Std.Async.Signal
import Std.Async.TCP

/-!
# The command line program

The commands over real files, connections and signals.  What is to be done is decided by
`Program.prepare`, how a capture goes on by `Live`, what its consumer does by `Drain`, what is written
to which file by `DayFiles`, and how a file is compressed by `Compression`.  Here the outcomes of
dials, reads and calls of the system are told to them, and what they come to is carried out.

## Main definitions

* `main`
-/

namespace FeedCapture

open Std.Async
open TCP.Socket (Client)

namespace Main

/-! ## Settings -/

/-- What stands at a path, if anything. -/
def readNode? (path : String) : IO (Option FileTree.Node) := do
  try
    return some (.file (← IO.FS.readBinFile path).toList)
  catch
    | .noFileOrDirectory .. => return none
    | _ => return some .directory

/-- All variables of the environment. -/
def readEnvironment : IO Environment := do
  let block ← IO.FS.readBinFile "/proc/self/environ"
  return Environment.ofBlock ((String.fromUTF8? block).getD "")

/-- The files that settings may come from. -/
def readFiles (env : Environment) (command : Command) : IO Files := do
  let path := match command with
    | .run path _ _ => path
    | .config path => path
  let paths := path.toList ++ [Settings.baseFile, Settings.environmentFile env]
  let nodes ← paths.mapM fun p => return (p, ← readNode? p)
  return fun p => (nodes.lookup p).join

/-! ## Reports -/

/-- Prints a log entry if the filter goes down to its level. -/
def say (verbosity : Nat) (e : Log.Entry) : IO Unit := do
  if e.level.verbosity ≤ verbosity then
    IO.println e.line
    (← IO.getStdout).flush

/-! ## Compressing -/

/-- A file that is being compressed. -/
structure Archiving where
  path : String
  source : Option IO.FS.Handle := none
  target : Option IO.FS.Handle := none
  stream : Compression.Stream := {}

/-- Takes a step.  The parts that the writer writes with it go to the archive. -/
def Archiving.perform (a : Archiving) (act : Compression.Act) : IO Archiving := do
  let a := { a with stream := { a.stream with written := [] }.step act }
  match act with
  | .openSource => return { a with source := some (← IO.FS.Handle.mk a.path .read) }
  | .createArchive =>
    let archive := a.path ++ ".lz4"
    return { a with target := some (← IO.FS.Handle.mk archive .write) }
  | .removeSource =>
    IO.FS.removeFile a.path
    return a
  | _ =>
    if let some target := a.target then
      target.write ⟨(a.stream.written.flatMap Lz4.Part.bytes).toArray⟩
      target.flush
    return a

/-- Copies what is left to read, piece by piece. -/
partial def Archiving.copy (a : Archiving) : IO Archiving := do
  let some source := a.source | return a
  let piece ← source.read (USize.ofNat Compression.pieceSize)
  if piece.isEmpty then return a
  let steps := Compression.pieceActs a.stream.taken.length piece.toList
  (← steps.foldlM Archiving.perform a).copy

/-- Compresses the file of a path. -/
def archive (path : String) : IO Unit := do
  let begun ← Compression.opening.foldlM Archiving.perform { path }
  let copied ← begun.copy
  discard <| (.finish :: Compression.closing).foldlM Archiving.perform copied

/-! ## Files -/

/-- The day files of a capture.  What they have in their file tree and the real files do not have yet
is written to the real ones after every call, and taken out of the file tree. -/
structure Output where
  files : DayFiles
  /-- The real file behind the open one. -/
  handle : Option IO.FS.Handle := none
  /-- The files that are compressed in the background. -/
  tasks : List (String × Task (Except IO.Error Unit)) := []

/-- The fault that an error of the system stands for. -/
def faultOf (e : IO.Error) : FileTree.Fault := .other e.toString

/-- Opens the real file of a path, or says what is in the way. -/
def openFile (directory path : String) : EIO DayFiles.Obstacle IO.FS.Handle := do
  (IO.FS.createDirAll directory).toEIO fun e => .directory (faultOf e)
  (IO.FS.Handle.mk path .append).toEIO fun e => .file (faultOf e)

/-- Writes to the real file of an open one what the file tree has for it. -/
def writeOut (tree : FileTree) (day : Option DayFiles.OpenDay) (handle : Option IO.FS.Handle) :
    EIO DayFiles.Failure FileTree := do
  let (some day, some handle) := (day, handle) | return tree
  let bytes := tree.contentAt day.place
  if bytes.isEmpty then return tree
  (do handle.write ⟨bytes.toArray⟩; handle.flush).toEIO fun e => ⟨day.path, faultOf e⟩
  return tree.insert day.place (.file [])

/-- The output once the day files are in another state, with the given real file behind the open
one.  What is handed over begins to be compressed. -/
def Output.follow (o : Output) (files : DayFiles) (handle : Option IO.FS.Handle) :
    EIO DayFiles.Failure Output := do
  let tree ← writeOut files.tree o.files.current o.handle
  let tree ← writeOut tree files.current handle
  let started ← (files.compressing.drop o.files.compressing.length).mapM fun path =>
    return (path, ← (archive path).asTask)
  return { files := { files with tree }, handle, tasks := o.tasks ++ started }

/-- What a call of the day files comes to, when they are in another state after it.  If what it has
written cannot be written to the real files, it fails, and the day files stay as they were. -/
def Output.carryOut (o : Output) (files : DayFiles) (handle : Option IO.FS.Handle)
    (result : Except DayFiles.Failure Unit) :
    BaseIO (Output × Except DayFiles.Failure Unit) := do
  match ← (o.follow files handle).toBaseIO with
  | .ok next => return (next, result)
  | .error e => return (o, .error e)

/-- Writes a message.  When the day files open a file for it, the real one is opened before, and what
is in the way is told to them. -/
def Output.write (o : Output) (verbosity : Nat) (m : Message) :
    IO (Output × Except DayFiles.Failure Unit) := do
  let write obstacle := o.files.writeDespite obstacle m.data m.timestamp
  let opened? : DayFiles.Notice → Option String
    | .opened path => some path
    | .rotated _ => none
  let (obstacle, handle) ← match (write none).2.2.findSome? opened? with
    | none => pure (none, o.handle)
    | some path =>
      match ← (openFile o.files.directory path).toBaseIO with
      | .ok handle => pure (none, some handle)
      | .error obstacle => pure (some obstacle, none)
  let (files, result, notices) := write obstacle
  for notice in notices do say verbosity notice.entry
  o.carryOut files handle result

/-- Writes to the real file what is in the buffer. -/
def Output.flush (o : Output) : IO (Output × Except DayFiles.Failure Unit) :=
  o.carryOut o.files.flush o.handle (.ok ())

/-- Takes note of the files that are compressed by now, or waits until all of them are. -/
def Output.collect (o : Output) (verbosity : Nat) (all : Bool) : IO Output := do
  let mut (files, left) := (o.files, [])
  for (path, task) in o.tasks do
    if all || (← IO.hasFinished task) then
      let result := (← IO.wait task).mapError faultOf
      say verbosity (DayFiles.compressedEntry path result)
      files := if result.isOk then files.compressFile path
        else { files with compressing := files.compressing.erase path }
    else left := left ++ [(path, task)]
  return { o with files, tasks := left }

/-- Closes the open file, and waits for what happens in the background. -/
def Output.close (o : Output) (verbosity : Nat) : IO (Output × Except DayFiles.Failure Unit) := do
  let (o, result) ← o.carryOut o.files.shut none (.ok ())
  return (← o.collect verbosity true, result)

/-! ## Connections -/

/-- A worker's connection, or what there is of it. -/
inductive Line where
  | idle
  | dialing (task : AsyncTask (Client × Transport.Tuning))
  | connected (client : Client)
  | reading (client : Client) (task : AsyncTask (Option ByteArray))

/-- The failure that an error of the system stands for. -/
def failureOf (e : IO.Error) : Transport.Failure := { kind := .other, detail := some e.toString }

/-- Does something and gives the failure, if it fails. -/
def failureIn (act : IO Unit) : IO (Option Transport.Failure) := do
  try
    act
    return none
  catch e => return some (failureOf e)

/-- Sets the properties of a connection. -/
def tune (client : Client) (policy : Policy) : IO Transport.Tuning := do
  let seconds := policy.keepalivePeriod / 1000000000
  let keepalive ← failureIn
    (client.keepAlive true (Std.Time.Second.Offset.ofNat seconds) (Int.natCast_nonneg seconds))
  let nodelay ← failureIn (if policy.nodelay then client.noDelay else pure ())
  return { keepalive, nodelay }

/-- The address of a port. -/
def portOf (ip : Std.Net.IPAddr) (port : Nat) : Std.Net.SocketAddress :=
  match ip with
  | .v4 addr => .v4 ⟨addr, UInt16.ofNat port⟩
  | .v6 addr => .v6 ⟨addr, UInt16.ofNat port⟩

/-- Connects to the first address of a host that can be reached. -/
def connectAny (port : Nat) (policy : Policy) :
    List Std.Net.IPAddr → IO.Error → Async (Client × Transport.Tuning)
  | [], e => throw e
  | ip :: rest, _ => do
    try
      let client ← Client.mk
      client.connect (portOf ip port)
      return (client, ← tune client policy)
    catch e => connectAny port policy rest e

/-- Dials a source. -/
def dial (addr : String) (policy : Policy) : Async (Client × Transport.Tuning) := do
  match SourceAddress.parts? addr.toList with
  | none => throw (.userError "invalid socket address")
  | some (host, port) =>
    let found ← DNS.getAddrInfo (String.ofList host) (Nat.repr port)
    connectAny port policy found.toList (.userError "could not resolve to any addresses")

/-- Tells the capture what has become of a line, if anything. -/
def poll (l : Live) (slot : Nat) (line : Line) : IO (Live × Line) := do
  match line with
  | .dialing task =>
    if !(← IO.hasFinished task) then return (l, line)
    match task.get with
    | .ok (client, tuning) =>
      return (l.withFleet (l.fleet.dialEnded slot (.connected [] (some tuning))), .connected client)
    | .error e => return (l.withFleet (l.fleet.dialEnded slot (.refused (failureOf e))), .idle)
  | .reading client task =>
    if !(← IO.hasFinished task) then return (l, line)
    let act : Transport.Peer := match task.get with
      | .ok (some bytes) => .sends bytes.toList
      | .ok none => .ends
      | .error e => .fails (failureOf e)
    return (l.withFleet (l.fleet.peerActed slot act), .connected client)
  | _ => return (l, line)

/-- Starts to read for a worker that wants to. -/
def read (l : Live) (slot : Nat) (line : Line) : IO Line := do
  match line with
  | .connected client =>
    if l.fleet.wantsToRead slot then
      let room := UInt64.ofNat l.fleet.hub.policy.readBufferSize
      return .reading client (← (client.recv? room).toIO)
    return line
  | _ => return line

/-- What an event of a worker means for its line: a dial starts, or the connection is given up. -/
def follow (policy : Policy) (addr : String) (line : Line) : Worker.Event → IO Line
  | .dialed => return .dialing (← (dial addr policy).toIO)
  | .exited _ => return .idle
  | .stopped => return .idle
  | _ => return line

/-! ## Captures -/

/-- A capture under way. -/
structure Shell where
  live : Live
  lines : Array Line
  /-- The consumer, with the output that it writes to. -/
  drain : Drain.State Output
  verbosity : Nat
  /-- The time at which the clock started, in nanoseconds. -/
  origin : Nat

/-- Takes in what the capture did since the last time. -/
def Shell.followEvents (s : Shell) : IO Shell := do
  let (events, own, live) := s.live.takeEvents
  for e in own do say s.verbosity e.report
  let mut lines := s.lines
  for (slot, e) in events do
    let addr := ((live.fleet.workers[slot]?).map (·.key.addr)).getD ""
    if let some entry := e.report? addr then say s.verbosity entry
    if let some line := lines[slot]? then
      lines := lines.set! slot (← follow live.fleet.hub.policy addr line e)
  return { s with live, lines }

/-- The consumer did something to its output. -/
def Shell.after (s : Shell) (step : Drain.State Output × (Instant × Drain.Event DayFiles.Failure)) :
    IO Shell := do
  if let some entry := step.2.2.report? DayFiles.Failure.message then say s.verbosity entry
  return { s with drain := step.1 }

/-- The consumer does all that there is for it to do: it flushes when a tick is there, and else it
writes the next message.  The workers go on after each message. -/
partial def Shell.consume (s : Shell) : IO Shell := do
  let drain := { s.drain with now := max s.drain.now s.live.fleet.hub.now }
  if drain.tickDue then
    let (next, result) ← drain.sink.flush
    (← s.after (Drain.flushStep (.told next result) drain)).consume
  else
    match s.live.fleet.receive? with
    | none => return { s with drain }
    | some (m, fleet) =>
      let (next, result) ← drain.sink.write s.verbosity m
      let s := { s with live := (s.live.withFleet fleet).settle }
      (← s.after (Drain.writeStep (.told next result) drain drain.now m)).consume

/-- Captures until the capture is over. -/
partial def Shell.loop (s : Shell) (signals : List (AsyncTask Int)) : IO Shell := do
  let now := (← IO.monoNanosNow) - s.origin
  let mut live := s.live.withFleet (s.live.fleet.moveTo now)
  let mut lines := s.lines
  for slot in [0:lines.size] do
    if let some line := lines[slot]? then
      let (next, line) ← poll live slot line
      live := next
      lines := lines.set! slot line
  if live.stopCall.isNone && (← signals.anyM fun t => IO.hasFinished t) then
    say s.verbosity ⟨.info, "shutdown requested", []⟩
    live := live.shutDown
  let s ← ({ s with live := live.settle, lines } : Shell).consume
  let s ← s.followEvents
  let s := { s with drain.sink := ← s.drain.sink.collect s.verbosity false }
  if s.live.isOver then return s
  let reading ← s.lines.mapIdxM fun slot line => read s.live slot line
  IO.sleep 1
  ({ s with lines := reading } : Shell).loop signals

/-- Closes the output of a capture that is over, and tells what it came to. -/
def Shell.finish (s : Shell) : IO UInt32 := do
  let (next, result) ← s.drain.sink.close s.verbosity
  match (Drain.closeStep (.told next result) s.drain s.live.fleet.hub.now).result with
  | .error e =>
    IO.eprintln ("Error: " ++ e.message)
    return 1
  | .ok written =>
    say s.verbosity ⟨.info, "capture finished", [("written", .number written)]⟩
    say s.verbosity ⟨.debug, "final metrics:\n" ++ s.live.fleet.hub.metrics.exposition, []⟩
    return 0

/-- Captures over real connections until a signal comes. -/
def capture (s : Settings) (verbosity : Nat) : IO UInt32 := do
  match Supervisor.create s.capture.sources s.capture.policy {} true,
    Ticker.every (Duration.millis s.sink.flushInterval) with
  | .error e, _ =>
    IO.eprintln ("Error: " ++ e.message)
    return 1
  | _, .error e =>
    IO.eprintln ("Error: " ++ e.message)
    return 1
  | .ok supervisor, .ok ticker =>
    if s.capture.sources.isEmpty then
      say verbosity ⟨.warn, "no sources configured, nothing will be captured", []⟩
    let signals ← [Signal.sigint, .sigterm, .sigquit].mapM fun kind => do
      (← Signal.Waiter.mk kind false).wait
    let epoch := (← Std.Time.Timestamp.now).toMillisecondsSinceUnixEpoch.val
    let started := supervisor.start
    let fleet := { started.fleet with hub := { started.fleet.hub with epoch } }
    say verbosity ⟨.info, "capturing", [("sources", .number s.capture.sources.length),
      ("directory", .text s.sink.directory)]⟩
    let shell : Shell :=
      { live := { supervisor := { started with fleet } }
        lines := Array.replicate s.capture.sources.length .idle
        drain := { ticker, sink := { files := Program.dayFiles {} s.sink } }
        verbosity
        origin := ← IO.monoNanosNow }
    (← shell.loop signals).finish

/-! ## Commands -/

/-- How to call the program. -/
def usage : String :=
  "Usage: trackfeed run [-c FILE] [-s HOST:PORT]... [-o DIRECTORY]\n" ++
  "       trackfeed config [-c FILE]"

/-- Carries out a command. -/
def obey (command : Command) : IO UInt32 := do
  let env ← readEnvironment
  match Program.prepare (← readFiles env command) env command with
  | .error e =>
    IO.eprintln ("Error: " ++ e.message)
    return 1
  | .ok (.print text) =>
    IO.print text
    return 0
  | .ok (.capture s) =>
    let filter := Log.Filter.choose s.telemetry.logLevel (env.lookup "RUST_LOG")
    capture s (Log.Filter.verbosity (filter.toOption.getD ""))

/-- Shows why nothing is done. -/
def refuse (r : CommandLine.Refusal) : IO UInt32 := do
  match r with
  | .help => IO.println usage
  | .version => IO.println "trackfeed"
  | _ => IO.eprintln usage
  return UInt32.ofNat r.exitCode

end Main

end FeedCapture

/-- The program. -/
def main (args : List String) : IO UInt32 :=
  match FeedCapture.Command.ofArguments args with
  | .error r => FeedCapture.Main.refuse r
  | .ok command => FeedCapture.Main.obey command
