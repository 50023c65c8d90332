import FeedCapture.Proofs.Files.Days
import FeedCapture.Proofs.Files.Interruption

/-!
# Records that are refused

A record is refused when a file has to be opened for it and cannot be.  The file that was open until
then is closed and handed over all the same, so no file is open afterwards; but nothing else is done
to any file than flushing would have done.

## Main definitions

* `DayFiles.MakesRoom` — what is done before a file is opened
* `DayFiles.Prepared` — what is done when a file cannot be opened

The main statements are `writeDespite_error` and `fileAt?_of_refused`.
-/

namespace FeedCapture

namespace FileTree

variable {t : FileTree} {path : String}

/-- Compressing that fails leaves everything as it is. -/
theorem compress_of_failed (failed : (t.compress path none).2 = false) :
    (t.compress path none).1 = t := by
  rcases Compression.compress_none_cases t path with same | ⟨source, archive, -, -, ran⟩
  · rw [same]
  · rw [ran] at failed
    cases failed

/-- Compressing changes the file and its archive alone. -/
theorem fileAt?_compress_of_ne {place : Place} (file : placeOf path ≠ place)
    (archive : placeOf (path ++ ".lz4") ≠ place) (interruption : Option Nat) :
    (t.compress path interruption).1.fileAt? place = t.fileAt? place := by
  rcases Compression.compress_cases t path interruption with
    failed | ⟨source, target, found, made, n, -, ran⟩
  · rw [failed]
  · rw [ran]
    refine fileAt?_congr (get?_performAll_of_ne ?_ ?_ _ _)
    · rintro rfl
      exact file (placeOf_of_target found)
    · rintro rfl
      exact archive (placeOf_of_target made)

end FileTree

namespace DayFiles

open FileTree

variable {s s' closed : DayFiles} {date : Date} {obstacle : Option Obstacle} {data : Bytes}
  {received : Int} {e : Failure} {notices : List Notice}

theorem pathFor_congr (config : s'.directory = s.directory ∧ s'.filePrefix = s.filePrefix)
    (date : Date) : s'.pathFor date = s.pathFor date := by
  rw [pathFor, pathFor, config.1, config.2]

/-- What is done before the file of a day is opened: nothing if no file is open, and an open file of
an earlier day is closed and handed over. -/
inductive MakesRoom (s : DayFiles) (date : Date) : DayFiles → Prop
  | idle (none : s.current = none) : MakesRoom s date s
  | rotated {day : OpenDay} (open? : s.current = some day) (before : day.date.lt date = true) :
      MakesRoom s date (s.rotate day).1

/-- The file tree when a file could not be opened: directories were made, or nothing was done. -/
def Prepared (s : DayFiles) (tree : FileTree) : Prop :=
  tree = s.tree ∨ s.tree.createDirectories s.directory = .ok tree

namespace MakesRoom

theorem config (room : MakesRoom s date closed) :
    closed.directory = s.directory ∧ closed.filePrefix = s.filePrefix := by
  cases room <;> exact ⟨rfl, rfl⟩

theorem current (room : MakesRoom s date closed) : closed.current = none := by
  cases room with
  | idle none => exact none
  | rotated => rfl

/-- What was in the buffer is in the file. -/
theorem tree (room : MakesRoom s date closed) : closed.tree = s.flush.tree := by
  cases room with
  | idle none => simp [flush, none]
  | rotated open? => simp [flush, open?, rotate]

/-- A record that joins those of the open file needs no room. -/
theorem not_joins (room : MakesRoom s date closed) :
    ¬ ∃ day ∈ s.current, date.le day.date = true := by
  rintro ⟨day, open?, joins⟩
  cases room with
  | idle none =>
    rw [none] at open?
    cases open?
  | rotated other before =>
    rw [other] at open?
    cases open?
    rw [Date.le, before] at joins
    cases joins

/-- A day that room is made for is the one that its records are filed under. -/
theorem filedUnder_eq (room : MakesRoom s date closed) :
    filedUnder (s.current.map (·.date)) date = date := by
  cases room with
  | idle none => simp [none, filedUnder]
  | rotated open? before => simp [open?, filedUnder, Date.le, before]

end MakesRoom

/-- The file for a date is the open one, or room is made and it is opened. -/
theorem dayFor_room {day : OpenDay} (h : s.dayFor date obstacle = (s', .ok day, notices)) :
    (s.current = some day ∧ date.le day.date = true ∧ s' = s) ∨
      ∃ closed tree, MakesRoom s date closed ∧ s' = { closed with tree } ∧ day.date = date ∧
        Stocked.Opened closed date tree day := by
  rcases dayFor_ok h with joined | ⟨closed, tree, before, moved, own, opened⟩
  · exact .inl joined
  · refine .inr ⟨closed, tree, ?_, moved, own, opened⟩
    rcases before with ⟨none, rfl⟩ | ⟨c, open?, before, rfl⟩
    · exact .idle none
    · exact .rotated open? before

/-- Making directories changes no file. -/
theorem Prepared.fileAt? {tree : FileTree} (prepared : s.Prepared tree) (place : Place) :
    tree.fileAt? place = s.tree.fileAt? place := by
  rcases prepared with rfl | made
  · rfl
  · exact fileAt?_createDirectories made place

/-- The file of a day can be opened, once its directory is made where that is missing. -/
def openable (s : DayFiles) (date : Date) : Bool :=
  match s.tree.createDirectories s.directory with
  | .error _ => false
  | .ok tree => (tree.openForAppend (s.pathFor date)).isOk

/-- What comes of opening the file of a day. -/
inductive Opening (s : DayFiles) (date : Date) (obstacle : Option Obstacle) :
    DayFiles × Except Failure OpenDay × List Notice → Prop
  | opened {made tree : FileTree} {place : Place} (clear : obstacle = none)
      (created : s.tree.createDirectories s.directory = .ok made)
      (found : made.openForAppend (s.pathFor date) = .ok (tree, place)) :
      Opening s date obstacle
        ({ s with tree }, .ok { date, path := s.pathFor date, place }, [.opened (s.pathFor date)])
  | failed {tree : FileTree} {e : Failure}
      (hindered : ¬ (obstacle = none ∧ s.openable date = true)) (prepared : s.Prepared tree) :
      Opening s date obstacle ({ s with tree }, .error e, [])

theorem opening (s : DayFiles) (date : Date) (obstacle : Option Obstacle) :
    Opening s date obstacle (s.openDay date obstacle) := by
  have hindered : ∀ o : Obstacle, ¬ (some o = none ∧ s.openable date = true) := by simp
  cases obstacle with
  | none =>
    unfold openDay
    dsimp only
    split
    · next failed => exact .failed (by simp [openable, failed]) (.inl rfl)
    · next made created =>
      split
      · next failed =>
        refine .failed ?_ (.inr created)
        simp [openable, created, failed, Except.isOk, Except.toBool]
      · next found => exact .opened rfl created found
  | some o =>
    cases o with
    | directory fault => exact .failed (hindered _) (.inl rfl)
    | file fault =>
      unfold openDay
      dsimp only
      split
      · exact .failed (hindered _) (.inl rfl)
      · next created => exact .failed (hindered _) (.inr created)

theorem openable_of_opened {made tree : FileTree} {place : Place}
    (created : s.tree.createDirectories s.directory = .ok made)
    (found : made.openForAppend (s.pathFor date) = .ok (tree, place)) : s.openable date = true := by
  simp [openable, created, found, Except.isOk, Except.toBool]

/-- The file for a record is the one that is open, or room is made and a file is opened. -/
theorem dayFor_cases (s : DayFiles) (date : Date) (obstacle : Option Obstacle) :
    (∃ day, s.current = some day ∧ date.le day.date = true ∧
      s.dayFor date obstacle = (s, .ok day, [])) ∨
    ∃ closed rotated, MakesRoom s date closed ∧ (∀ path, .opened path ∉ rotated) ∧
      s.dayFor date obstacle = ((closed.openDay date obstacle).1,
        (closed.openDay date obstacle).2.1, rotated ++ (closed.openDay date obstacle).2.2) := by
  unfold dayFor
  cases open? : s.current with
  | none => exact .inr ⟨s, [], .idle open?, by simp, rfl⟩
  | some day =>
    dsimp only
    by_cases joins : date.le day.date = true
    · rw [if_pos joins]
      exact .inl ⟨day, rfl, joins, rfl⟩
    · rw [if_neg joins]
      have before : day.date.lt date = true := by simpa [Date.le] using joins
      exact .inr ⟨(s.rotate day).1, (s.rotate day).2, .rotated open? before, by simp [rotate], rfl⟩

/-- A record is refused only if a file has to be opened for it. -/
theorem writeDespite_error (h : s.writeDespite obstacle data received = (s', .error e, notices)) :
    ∃ closed tree, MakesRoom s (Date.ofMillis received) closed ∧ closed.Prepared tree ∧
      s' = { closed with tree, current := none } := by
  unfold writeDespite at h
  rcases dayFor_cases s (Date.ofMillis received) obstacle with
    ⟨day, -, -, found⟩ | ⟨closed, rotated, room, -, found⟩
  · rw [found] at h
    cases h
  · rw [found] at h
    have opening := opening closed (Date.ofMillis received) obstacle
    generalize closed.openDay (Date.ofMillis received) obstacle = result at h opening
    cases opening with
    | opened => cases h
    | @failed tree _ _ prepared =>
      cases h
      exact ⟨closed, tree, room, prepared, rfl⟩

/-- A refused record adds nothing to any file: they have what they would have after a flush. -/
theorem fileAt?_of_refused (h : s.writeDespite obstacle data received = (s', .error e, notices))
    (place : Place) : s'.tree.fileAt? place = s.flush.tree.fileAt? place := by
  obtain ⟨closed, tree, room, prepared, rfl⟩ := writeDespite_error h
  rw [← room.tree]
  exact prepared.fileAt? place

/-- What is opened for a record is the file of its day, and only when it has to be. -/
theorem opened_mem_notices {path : String}
    (h : .opened path ∈ (s.writeDespite obstacle data received).2.2) :
    path = s.pathFor (Date.ofMillis received) ∧
      ∃ closed, MakesRoom s (Date.ofMillis received) closed := by
  have notices : (s.writeDespite obstacle data received).2.2 =
      (s.dayFor (Date.ofMillis received) obstacle).2.2 := by
    unfold writeDespite
    split <;> (next found => rw [found])
  rw [notices] at h
  rcases dayFor_cases s (Date.ofMillis received) obstacle with
    ⟨day, -, -, found⟩ | ⟨closed, rotated, room, other, found⟩
  · rw [found] at h
    cases h
  · rw [found] at h
    have h := (List.mem_append.1 h).resolve_left (other path)
    have opening := opening closed (Date.ofMillis received) obstacle
    generalize closed.openDay (Date.ofMillis received) obstacle = result at h opening
    cases opening with
    | opened =>
      have path := Notice.opened.inj (List.mem_singleton.1 h)
      exact ⟨path.trans (pathFor_congr room.config _), closed, room⟩
    | failed => cases h

end DayFiles

end FeedCapture
