import FeedCapture.DayFiles

/-!
# Using day files

Day files are used by writing records and flushing, in any order, while the files that are handed
over are compressed in the background, each at some moment; in the end they are closed.  It is kept
which records were acknowledged and which operations failed.

## Main definitions

* `DayFiles.InUse` — day files with what was done to them
* `DayFiles.InUse.act?`, `DayFiles.InUse.run?` — what comes of an act, and of several in order
* `DayFiles.InUse.close` — the files are closed, and what happens in the background ends
-/

namespace FeedCapture.DayFiles

/-- Something that is done to day files. -/
inductive Act where
  /-- A record that was received at an instant is written.  The obstacle, if there is one, is in the
  way should a file have to be opened. -/
  | write (obstacle : Option Obstacle) (data : Bytes) (received : Int)
  | flush
  /-- The file of a path, which was handed over, is compressed. -/
  | compress (path : String)
deriving DecidableEq, Repr

/-- Day files with what was done to them. -/
structure InUse where
  files : DayFiles
  /-- The records that were written, in order. -/
  written : List (Bytes × Int) := []
  /-- Why records were not written. -/
  refused : List Failure := []
  /-- The paths of the files that could not be compressed. -/
  left : List String := []
deriving DecidableEq, Repr

/-- The open file is closed, if there is one, and stays as it is. -/
def shut (s : DayFiles) : DayFiles := { s.flush with current := none }

namespace InUse

/-- A file that was handed over is compressed, unless that fails. -/
def compressFile (u : InUse) (path : String) : InUse :=
  { u with
    files := u.files.compressFile path
    left := if (u.files.tree.compress path none).2 then u.left else u.left ++ [path] }

/-- What comes of an act, if the act is possible. -/
def act? (u : InUse) : Act → Option InUse
  | .write obstacle data received =>
    match u.files.writeDespite obstacle data received with
    | (files, .ok (), _) => some { u with files, written := u.written ++ [(data, received)] }
    | (files, .error e, _) => some { u with files, refused := u.refused ++ [e] }
  | .flush => some { u with files := u.files.flush }
  | .compress path => if path ∈ u.files.compressing then some (u.compressFile path) else none

/-- What comes of acts in order, if all of them are possible. -/
def run? (u : InUse) : List Act → Option InUse
  | [] => some u
  | a :: rest => (u.act? a).bind fun u => u.run? rest

/-- What no act breaks holds after a run. -/
theorem preserved_of_run? {P : InUse → Prop}
    (keeps : ∀ {u v : InUse} {a : Act}, P u → u.act? a = some v → P v) {u v : InUse}
    {acts : List Act} (h : P u) (ran : u.run? acts = some v) : P v := by
  induction acts generalizing u with
  | nil =>
    cases ran
    exact h
  | cons a acts ih =>
    obtain ⟨next, ha, ran⟩ := Option.bind_eq_some_iff.1 ran
    exact ih (keeps h ha) ran

/-- Closes the open file, and compresses all files that were handed over. -/
def close (u : InUse) : InUse :=
  u.files.compressing.foldl compressFile { u with files := u.files.shut }

end InUse

theorem compressing_flush (s : DayFiles) : s.flush.compressing = s.compressing := by
  unfold flush
  split <;> rfl

/-- Closing is to close the open file and then to wait for what happens in the background. -/
theorem close_eq_settle_shut (s : DayFiles) : s.close = s.shut.settle := by
  unfold close shut flush
  split
  · next none => simp only [← none]
  · rfl

/-- What is kept makes no difference to closing. -/
theorem InUse.files_close (u : InUse) : u.close.files = u.files.close := by
  have files : ∀ (paths : List String) (u : InUse),
      (paths.foldl compressFile u).files = paths.foldl DayFiles.compressFile u.files := by
    intro paths
    induction paths with
    | nil => exact fun _ => rfl
    | cons path paths ih => exact fun u => ih (u.compressFile path)
  rw [close_eq_settle_shut, settle, close, files]
  exact congrArg (List.foldl _ _) (compressing_flush u.files).symm

end FeedCapture.DayFiles
