import FeedCapture.DayFiles.Run
import FeedCapture.Proofs.Files.Stock

/-!
# What each operation leaves in the files

What is in the buffer gets into the open file sooner or later, so what matters is the file tree that
there will be once it has.  On this file tree, flushing and closing change nothing, writing a record
adds its line to one file, and compressing moves the content of one file to its archive.

## Main definitions

* `DayFiles.landed` — the file tree once the buffer is written
* `FileTree.Lined` — a line was added to a file
* `FileTree.Archived` — the content of a file was moved to its archive

The main statements are `lined_putLine` and `archived_compressFile`.
-/

namespace FeedCapture

namespace FileTree

open Compression

/-- The file at a place has its content and one line more, and no other file is changed. -/
structure Lined (t t' : FileTree) (place : Place) (data : Bytes) : Prop where
  file : t'.fileAt? place = some (.file (t.contentAt place ++ DayFiles.line data))
  others : ∀ other, other ≠ place → t'.fileAt? other = t.fileAt? other

/-- The content of a file is in its archive, the file is gone, and no other file is changed. -/
structure Archived (t t' : FileTree) (source archive : Place) : Prop where
  gone : t'.fileAt? source = none
  kept : t'.fileAt? archive = some (.archive (t.contentAt source))
  others : ∀ other, other ≠ source → other ≠ archive → t'.fileAt? other = t.fileAt? other

/-- Compressing that succeeds moves the content of the file to its archive. -/
theorem archived_compress {t : FileTree} {path : String}
    (apart : Apart (placeOf path) (placeOf (path ++ ".lz4")))
    (ok : (t.compress path none).2 = true) :
    Archived t (t.compress path none).1 (placeOf path) (placeOf (path ++ ".lz4")) := by
  rcases compress_none_cases t path with failed | ⟨source, archive, found, target, ran⟩
  · rw [failed] at ok
    cases ok
  · obtain rfl := placeOf_of_target found
    obtain rfl := placeOf_of_target target
    rw [ran]
    obtain ⟨kept, gone⟩ :=
      get?_performAll_acts apart t (t.contentAt (placeOf path))
    refine ⟨?_, ?_, fun other ps pa => ?_⟩
    · simp only [fileAt?, gone, Option.filter_none]
    · simp [fileAt?, kept]
    · exact fileAt?_congr (get?_performAll_of_ne ps pa _ _)

end FileTree

namespace DayFiles

open FileTree

variable {s s' : DayFiles} {day : OpenDay} {tree tree' : FileTree}

/-! ## The buffer -/

/-- The file tree once the buffer is written. -/
def landed (s : DayFiles) : FileTree := s.flush.tree

theorem landed_of_none (none : s.current = none) : s.landed = s.tree := by
  simp [landed, flush, none]

theorem landed_of_some (open? : s.current = some day) : s.landed = (day.flush s.tree).1 := by
  simp [landed, flush, open?]

@[simp] theorem landed_shut (s : DayFiles) : s.shut.landed = s.landed := rfl

@[simp] theorem landed_rotate (open? : s.current = some day) :
    (s.rotate day).1.landed = s.landed := by
  rw [landed_of_some open?]
  rfl

theorem flush_of_empty (tree : FileTree) (empty : day.buffer = []) :
    day.flush tree = (tree, day) := by
  simp [OpenDay.flush, empty]

/-- Flushing changes nothing that will be in the files. -/
@[simp] theorem landed_flush (s : DayFiles) : s.flush.landed = s.landed := by
  cases open? : s.current with
  | none => simp [flush, open?]
  | some day =>
    have flushed : s.flush.current = some (day.flush s.tree).2 := by simp [flush, open?]
    rw [landed_of_some flushed, flush_of_empty _ (buffer_flush s.tree day)]
    rfl

theorem config_flush (s : DayFiles) : s.flush.directory = s.directory ∧
    s.flush.filePrefix = s.filePrefix ∧ s.flush.compress = s.compress := by
  unfold flush
  split <;> exact ⟨rfl, rfl, rfl⟩

/-- Writing the buffer leaves the open file what it is. -/
theorem same_flush (day : OpenDay) (tree : FileTree) : (day.flush tree).2.date = day.date ∧
    (day.flush tree).2.path = day.path ∧ (day.flush tree).2.place = day.place := by
  unfold OpenDay.flush
  split <;> exact ⟨rfl, rfl, rfl⟩

/-- Flushing leaves the open day open. -/
theorem map_date_flush (s : DayFiles) :
    s.flush.current.map (·.date) = s.current.map (·.date) := by
  cases open? : s.current with
  | none => simp [flush, open?]
  | some day => simp [flush, open?, (same_flush day s.tree).1]

/-- The open file after a flush is the one before. -/
theorem current_flush (s : DayFiles) : ∀ day ∈ s.flush.current, ∃ c ∈ s.current,
    day.date = c.date ∧ day.path = c.path ∧ day.place = c.place := by
  intro day hd
  cases open? : s.current with
  | none => simp [flush, open?] at hd
  | some c =>
    simp only [flush, open?, Option.mem_def, Option.some.injEq] at hd
    exact ⟨c, rfl, hd ▸ same_flush c s.tree⟩

/-- What the buffer is written to changes no other file. -/
theorem fileAt?_flush_of_ne (day : OpenDay) (tree : FileTree) {place : Place}
    (hne : place ≠ day.place) : (day.flush tree).1.fileAt? place = tree.fileAt? place := by
  unfold OpenDay.flush
  split
  · rfl
  · exact fileAt?_append_of_ne tree _ hne

/-- What the buffer is written to depends on that file alone. -/
theorem fileAt?_flush_congr {place : Place} (plain : isAnchor day.place = false)
    (same : tree'.fileAt? place = tree.fileAt? place) :
    (day.flush tree').1.fileAt? place = (day.flush tree).1.fileAt? place := by
  by_cases here : place = day.place
  · subst here
    unfold OpenDay.flush
    split
    · exact same
    · rw [fileAt?_append_self tree' _ plain, fileAt?_append_self tree _ plain,
        contentAt_of_fileAt? same]
  · rw [fileAt?_flush_of_ne day _ here, fileAt?_flush_of_ne day _ here, same]

/-- Once some bytes are written, there is a file that holds them. -/
theorem exists_fileAt?_flush_put (tree : FileTree) {bytes : Bytes} (h : isAnchor day.place = false)
    (nonempty : bytes ≠ []) :
    ∃ content, ((day.put tree bytes).2.flush (day.put tree bytes).1).1.fileAt? day.place =
      some (.file content) := by
  obtain ⟨start, wrote, empty, put⟩ := exists_put_eq tree bytes h
  rw [put, ← wrote.place]
  have place : isAnchor start.2.place = false := wrote.place ▸ h
  split
  · next large =>
    rw [flush_of_empty _ (empty large)]
    exact ⟨_, fileAt?_append_self _ bytes place⟩
  · have buffered : (start.2.buffer ++ bytes).isEmpty = false := by simp [nonempty]
    rw [OpenDay.flush, buffered]
    exact ⟨_, fileAt?_append_self _ _ place⟩

/-! ## Writing a record -/

/-- A record adds its line to what will be in the open file. -/
theorem lined_putLine (tree : FileTree) (data : Bytes) (h : isAnchor day.place = false) :
    Lined (day.flush tree).1 ((day.putLine tree data).2.flush (day.putLine tree data).1).1
      day.place data := by
  have before := wrote_flush tree h
  have line := wrote_putLine tree data h
  have after := line.trans (wrote_flush _ (line.place ▸ h))
  have body := wrote_put tree (recordBody data) h
  obtain ⟨content, file⟩ : ∃ content, _ = some (Node.file content) :=
    exists_fileAt?_flush_put (day.put tree (recordBody data)).1 (body.place ▸ h)
      (List.cons_ne_nil 10 [])
  rw [body.place] at file
  refine ⟨file.trans ?_, fun other hne => ?_⟩
  · have held := before.content
    have written := after.content
    simp only [buffer_flush, List.append_nil] at held written
    rw [held, ← written]
    exact congrArg (fun c => some (Node.file c)) (contentAt_of_file file).symm
  · exact (after.others other hne).trans (before.others other hne).symm

/-! ## Compressing -/

/-- Compressing a file that is not open moves what will be in it. -/
theorem archived_compressFile {path : String} {source archive : Place}
    (elsewhere : ∀ day ∈ s.current,
      isAnchor day.place = false ∧ day.place ≠ source ∧ day.place ≠ archive)
    (done : Archived s.tree (s.compressFile path).tree source archive) :
    Archived s.landed (s.compressFile path).landed source archive := by
  cases current : s.current with
  | none =>
    have current' : (s.compressFile path).current = none := current
    rw [landed_of_none current, landed_of_none current']
    exact done
  | some day =>
    have current' : (s.compressFile path).current = some day := current
    obtain ⟨plain, hs, ha⟩ := elsewhere day current
    rw [landed_of_some current, landed_of_some current']
    refine ⟨?_, ?_, fun other ps pa => fileAt?_flush_congr plain (done.others other ps pa)⟩
    · exact (fileAt?_flush_of_ne day _ hs.symm).trans done.gone
    · rw [fileAt?_flush_of_ne day _ ha.symm, done.kept,
        contentAt_of_fileAt? (fileAt?_flush_of_ne day s.tree hs.symm)]

end DayFiles

end FeedCapture
