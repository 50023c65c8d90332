import FeedCapture.Calendar
import FeedCapture.FileTree.Compression
import FeedCapture.Log

/-!
# Day files

Records are appended to one file for each day, one record a line, by the date of their receipt.  A
record of a later day closes the file and starts the next one, and the closed file is handed over to
be compressed in the background; a record of an earlier day goes into the open file.

What is written stays in a buffer until the buffer is full, is flushed, or the file is closed.

## Main definitions

* `DayFiles` — the open file and the file tree that it is in
* `DayFiles.writeDespite`, `DayFiles.flush`, `DayFiles.close`
* `DayFiles.compressFile`, `DayFiles.settle` — what happens in the background
* `DayFiles.recordBody` — a record without the line end that it came with
-/

namespace FeedCapture

/-- A file that records are being written to. -/
structure DayFiles.OpenDay where
  date : Date
  path : String
  place : Place
  /-- What is not in the file yet. -/
  buffer : Bytes := []
deriving DecidableEq, Repr

/-- The files of all days, at most one of them open. -/
structure DayFiles where
  tree : FileTree := {}
  directory : String
  filePrefix : String
  compress : Bool := true
  current : Option DayFiles.OpenDay := none
  /-- The paths of the files that are handed over and not compressed yet. -/
  compressing : List String := []
deriving DecidableEq, Repr

namespace DayFiles

/-- Why an operation fails, and on which path. -/
structure Failure where
  path : String
  fault : FileTree.Fault
deriving DecidableEq, Repr

/-- The wording of a failure. -/
def Failure.message (e : Failure) : String := "I/O error on " ++ e.path ++ ": " ++ e.fault.message

/-- What is reported about files. -/
inductive Notice where
  | rotated (path : String)
  | opened (path : String)
deriving DecidableEq, Repr

/-- The log entry of a notice. -/
def Notice.entry : Notice → Log.Entry
  | .rotated path => ⟨.info, "rotated output file", [("path", .text path)]⟩
  | .opened path => ⟨.debug, "opened output file", [("path", .text path)]⟩

/-- What is reported when the file of a path was compressed, or could not be. -/
def compressedEntry (path : String) : Except FileTree.Fault Unit → Log.Entry
  | .ok _ => ⟨.info, "compressed rotated file", [("path", .text (path ++ ".lz4"))]⟩
  | .error fault =>
    ⟨.error, "failed to compress rotated file",
      [("path", .text path), ("error", .text fault.message)]⟩

/-! ## Records -/

/-- The bytes without one of the given kind at their end, if there is one. -/
def dropEnd (byte : UInt8) (data : Bytes) : Bytes :=
  if data.getLast? = some byte then data.dropLast else data

/-- A record without the line end that it came with: a line feed, a carriage return, or both. -/
def recordBody (data : Bytes) : Bytes := dropEnd 13 (dropEnd 10 data)

/-- A record as it is written: its body and a line feed. -/
def line (data : Bytes) : Bytes := recordBody data ++ [10]

/-! ## Buffered writing -/

/-- The size of the buffer. -/
def bufferSize : Nat := 8192

/-- Writes the buffer to the file. -/
def OpenDay.flush (day : OpenDay) (tree : FileTree) : FileTree × OpenDay :=
  if day.buffer.isEmpty then (tree, day)
  else (tree.append day.place day.buffer, { day with buffer := [] })

/-- Writes bytes: into the buffer, which is emptied first when they do not fit, or straight to the
file when they would fill it. -/
def OpenDay.put (day : OpenDay) (tree : FileTree) (bytes : Bytes) : FileTree × OpenDay :=
  let (tree, day) :=
    if bufferSize < day.buffer.length + bytes.length then day.flush tree else (tree, day)
  if bufferSize ≤ bytes.length then (tree.append day.place bytes, day)
  else (tree, { day with buffer := day.buffer ++ bytes })

/-! ## Files -/

/-- The name of the file of a day. -/
def fileName (filePrefix : String) (date : Date) : String :=
  filePrefix ++ "-" ++ date.render ++ ".log"

/-- The path of the file of a day. -/
def pathFor (s : DayFiles) (date : Date) : String :=
  FileTree.join s.directory (fileName s.filePrefix date)

/-- What keeps a file from being opened, whatever the file tree holds. -/
inductive Obstacle where
  /-- The directory cannot be made. -/
  | directory (fault : FileTree.Fault)
  /-- The file cannot be opened. -/
  | file (fault : FileTree.Fault)
deriving DecidableEq, Repr

/-- Opens the file of a day, and makes it and its directory where they are missing, unless an
obstacle is in the way. -/
def openDay (s : DayFiles) (date : Date) (obstacle : Option Obstacle) :
    DayFiles × Except Failure OpenDay × List Notice :=
  let path := s.pathFor date
  match obstacle with
  | some (.directory fault) => (s, .error ⟨s.directory, fault⟩, [])
  | _ =>
    match s.tree.createDirectories s.directory with
    | .error fault => (s, .error ⟨s.directory, fault⟩, [])
    | .ok tree =>
      match obstacle with
      | some (.file fault) => ({ s with tree }, .error ⟨path, fault⟩, [])
      | _ =>
        match tree.openForAppend path with
        | .error fault => ({ s with tree }, .error ⟨path, fault⟩, [])
        | .ok (tree, place) => ({ s with tree }, .ok { date, path, place }, [.opened path])

/-- Closes the open file and hands it over to be compressed, if files are compressed. -/
def rotate (s : DayFiles) (day : OpenDay) : DayFiles × List Notice :=
  let (tree, _) := day.flush s.tree
  let compressing := if s.compress then s.compressing ++ [day.path] else s.compressing
  ({ s with tree, current := none, compressing }, [.rotated day.path])

/-- Compresses a file that was handed over.  A file whose archive cannot be written stays as it
is. -/
def compressFile (s : DayFiles) (path : String) : DayFiles :=
  { s with tree := (s.tree.compress path none).1, compressing := s.compressing.erase path }

/-- Compresses all files that were handed over. -/
def settle (s : DayFiles) : DayFiles := s.compressing.foldl compressFile s

/-- The open file for a record of a date: the one that is open unless it is of an earlier day. -/
def dayFor (s : DayFiles) (date : Date) (obstacle : Option Obstacle) :
    DayFiles × Except Failure OpenDay × List Notice :=
  match s.current with
  | none => s.openDay date obstacle
  | some day =>
    if date.le day.date then (s, .ok day, [])
    else
      let (s, rotated) := s.rotate day
      let (s, result, opened) := s.openDay date obstacle
      (s, result, rotated ++ opened)

/-- Writes a record that was received at an instant, in milliseconds since the start of 1970.  The
obstacle, if there is one, is in the way should a file have to be opened. -/
def writeDespite (s : DayFiles) (obstacle : Option Obstacle) (data : Bytes) (received : Int) :
    DayFiles × Except Failure Unit × List Notice :=
  match s.dayFor (Date.ofMillis received) obstacle with
  | (s, .error e, notices) => ({ s with current := none }, .error e, notices)
  | (s, .ok day, notices) =>
    let (tree, day) := day.put s.tree (recordBody data)
    let (tree, day) := day.put tree [10]
    ({ s with tree, current := some day }, .ok (), notices)

/-- Writes a record with no obstacle in the way, and waits for what happens in the background. -/
def write (s : DayFiles) (data : Bytes) (received : Int) :
    DayFiles × Except Failure Unit × List Notice :=
  let (s, result, notices) := s.writeDespite none data received
  (s.settle, result, notices)

/-- Writes the buffer of the open file, if there is one, to the file. -/
def flush (s : DayFiles) : DayFiles :=
  match s.current with
  | none => s
  | some day =>
    let (tree, day) := day.flush s.tree
    { s with tree, current := some day }

/-- Closes the open file, if there is one, and waits for what happens in the background. -/
def close (s : DayFiles) : DayFiles :=
  match s.current with
  | none => s.settle
  | some day => { s with tree := (day.flush s.tree).1, current := none }.settle

end DayFiles

end FeedCapture
