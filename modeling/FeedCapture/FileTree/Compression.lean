import FeedCapture.FileTree
import FeedCapture.Lz4

/-!
# Compressing files

A file is compressed step by step.  Its content is copied piece by piece into an encoder, which makes
blocks of it and hands them on to a buffered writer, which writes them to an archive beside the file;
the encoder ends the frame, the writer writes what it holds, and only then the file is removed.  Any
step may fail, and the file tree stays as the steps before it have left it.

An archive is complete when the parts that were written to it are a whole frame.  What the encoder
has taken in, or the writer holds, is not in the archive.

## Main definitions

* `Compression.Stream` — the encoder and the buffered writer behind it
* `Compression.Act`, `Compression.acts` — the steps for a content, in order
* `Compression.perform` — what a step does to the file tree
* `FileTree.compress` — compresses the file of a path, up to an interruption if there is one

The main statements say that copying the pieces copies the content (`flatten_pieces`), and that
compressing is some or all of the steps (`compress_cases`).
-/

namespace FeedCapture

/-- The file with some parts of a frame: an archive if they are a whole frame. -/
def FileTree.Node.ofParts (parts : List Lz4.Part) : FileTree.Node :=
  match Lz4.content? parts with
  | some content => .archive content
  | none => .unfinished (Lz4.plain parts)

namespace Compression

/-- The largest number of bytes that one step copies. -/
def pieceSize : Nat := 8192

/-- A content cut into pieces. -/
def pieces (content : Bytes) : List Bytes :=
  if _h : content = [] then []
  else content.take pieceSize :: pieces (content.drop pieceSize)
termination_by content.length
decreasing_by
  have : 0 < content.length := List.length_pos_iff.2 (by assumption)
  simp only [List.length_drop, pieceSize]
  omega

theorem flatten_pieces (content : Bytes) : (pieces content).flatten = content := by
  fun_induction pieces content with
  | case1 => simp
  | case2 content h ih => rw [List.flatten_cons, ih, List.take_append_drop]

/-! ## Steps -/

/-- A step of compressing a file. -/
inductive Act where
  | openSource
  /-- Makes the archive, without content, in the place of any file of its name. -/
  | createArchive
  /-- Copies bytes into the encoder. -/
  | copy (bytes : Bytes)
  /-- The encoder makes a block of what it has taken in. -/
  | encode
  /-- The writer writes the first parts that it holds, as many as are told.  A part that is written
  halfway does not count. -/
  | spill (count : Nat)
  /-- The encoder ends the frame. -/
  | finish
  /-- The writer writes all that it holds. -/
  | flush
  | removeSource
deriving DecidableEq, Repr

/-- The steps before anything is copied. -/
def opening : List Act := [.openSource, .createArchive]

/-- The steps once the frame is ended. -/
def closing : List Act := [.flush, .removeSource]

/-- The steps that copy a piece.  What the encoder has then taken in becomes a block if it is large
enough, and the writer writes it, with the start if that is not written yet. -/
def pieceActs (taken : Nat) (piece : Bytes) : List Act :=
  .copy piece :: if Lz4.blockSize ≤ taken + piece.length then [.encode, .spill 2] else []

/-- The steps that copy pieces, when the encoder has taken in some bytes already. -/
def copying (taken : Nat) : List Bytes → List Act
  | [] => []
  | piece :: rest =>
    pieceActs taken piece ++
      copying (if Lz4.blockSize ≤ taken + piece.length then 0 else taken + piece.length) rest

/-- The steps that compress a file with the given content. -/
def acts (content : Bytes) : List Act :=
  opening ++ copying 0 (pieces content) ++ .finish :: closing

/-! ## The encoder and the writer -/

/-- An encoder and the buffered writer that it hands its parts on to. -/
structure Stream where
  /-- What the encoder has taken in and not made a block of. -/
  taken : Bytes := []
  /-- The encoder has handed on the start of the frame. -/
  begun : Bool := false
  /-- What the writer holds. -/
  held : List Lz4.Part := []
  /-- What the writer has written to the archive. -/
  written : List Lz4.Part := []
deriving DecidableEq, Repr

namespace Stream

/-- The frame is begun, if it is not yet. -/
def begin (s : Stream) : Stream :=
  if s.begun then s else { s with begun := true, held := s.held ++ [.start] }

/-- What the encoder has taken in becomes a block, if it is anything. -/
def encode (s : Stream) : Stream :=
  if s.taken = [] then s else { s with taken := [], held := s.held ++ [.block s.taken] }

/-- The writer writes the first parts that it holds. -/
def spill (s : Stream) (count : Nat) : Stream :=
  { s with held := s.held.drop count, written := s.written ++ s.held.take count }

/-- What a step does to the encoder and the writer. -/
def step (s : Stream) : Act → Stream
  | .openSource => s
  | .createArchive => {}
  | .copy bytes => { s.begin with taken := s.taken ++ bytes }
  | .encode => s.encode
  | .spill count => s.spill count
  | .finish => { s.begin.encode with held := s.begin.encode.held ++ [.stop] }
  | .flush => s.spill s.held.length
  | .removeSource => s

end Stream

/-! ## What becomes of the file tree -/

/-- A file that is being compressed. -/
structure Work where
  tree : FileTree
  stream : Stream := {}
deriving DecidableEq, Repr

/-- What a step does to the file tree.  The archive has the parts that are written to it. -/
def perform (source archive : Place) (w : Work) (act : Act) : Work :=
  let stream := w.stream.step act
  match act with
  | .openSource | .copy _ | .encode | .finish => { w with stream }
  | .createArchive | .spill _ | .flush =>
    { tree := w.tree.insert archive (.ofParts stream.written), stream }
  | .removeSource => { tree := w.tree.erase source, stream }

/-- What comes of some steps. -/
def performAll (source archive : Place) (w : Work) (acts : List Act) : Work :=
  acts.foldl (perform source archive) w

end Compression

open Compression

/-- Compresses the file of a path into a file of that name with `.lz4` behind it.  An interruption
says how many steps are done before one fails.  Tells whether all steps succeeded. -/
def FileTree.compress (t : FileTree) (path : String) (interruption : Option Nat) :
    FileTree × Bool :=
  match t.target path with
  | .error _ => (t, false)
  | .ok source =>
    match t.get? source with
    | none => (t, false)
    | some _ =>
      match t.target (path ++ ".lz4") with
      | .error _ => (t, false)
      | .ok archive =>
        let steps := acts (t.contentAt source)
        match interruption with
        | none => ((performAll source archive { tree := t } steps).tree, true)
        | some done =>
          ((performAll source archive { tree := t } (steps.take done)).tree,
            steps.length ≤ done)

namespace Compression

/-- Compressing is some or all of its steps, unless a file cannot be opened. -/
theorem compress_cases (t : FileTree) (path : String) (interruption : Option Nat) :
    t.compress path interruption = (t, false) ∨
      ∃ source archive, t.target path = .ok source ∧ t.target (path ++ ".lz4") = .ok archive ∧
        ∃ n, n = interruption.getD (acts (t.contentAt source)).length ∧
          t.compress path interruption =
            ((performAll source archive { tree := t } ((acts (t.contentAt source)).take n)).tree,
              decide ((acts (t.contentAt source)).length ≤ n)) := by
  unfold FileTree.compress
  split
  · exact .inl rfl
  · next source found =>
    split
    · exact .inl rfl
    · split
      · exact .inl rfl
      · next archive target =>
        refine .inr ⟨source, archive, found, target, _, rfl, ?_⟩
        cases interruption with
        | none => simp
        | some n => rfl

/-- Compressing is all of its steps, unless a file cannot be opened or a step fails. -/
theorem compress_none_cases (t : FileTree) (path : String) :
    t.compress path none = (t, false) ∨
      ∃ source archive, t.target path = .ok source ∧ t.target (path ++ ".lz4") = .ok archive ∧
        t.compress path none =
          ((performAll source archive { tree := t } (acts (t.contentAt source))).tree, true) := by
  rcases compress_cases t path none with failed | ⟨source, archive, found, target, n, rfl, ran⟩
  · exact .inl failed
  · refine .inr ⟨source, archive, found, target, ?_⟩
    simpa using ran

end Compression

end FeedCapture
