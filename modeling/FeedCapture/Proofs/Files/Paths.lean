import FeedCapture.DayFiles
import FeedCapture.Proofs.Files.Dates

/-!
# Where the files of the days are

A path leads to a place that can be read off its names, whatever directories there are.  The files
of different days are at different places, and none of them is where an archive is.

## Main definitions

* `FileTree.placeOf` — the place that a path leads to
* `DayFiles.archiveFor` — the path of the archive of a day

The main statement says that a path of a day file or an archive says which day and which of both it
is (`DayFiles.eq_of_placeOf`).
-/

namespace FeedCapture

namespace FileTree

/-- The place one name further. -/
def placeAfter (place : Place) (name : String) : Place :=
  if name = "/" then ["/"]
  else if name = "." then place
  else if name = ".." then parent place
  else place ++ [name]

/-- The place that a path leads to. -/
def placeOf (path : String) : Place := (names path).foldl placeAfter []

/-! ## Walks -/

variable {t : FileTree} {path name : String} {names : List String} {start place : Place}

/-- A walk comes to the place that its names spell. -/
theorem placeAfter_of_enter (h : t.enter start name = .ok place) :
    placeAfter start name = place := by
  unfold enter at h
  unfold placeAfter
  by_cases root : name = "/"
  · rw [if_pos root] at h ⊢
    exact Except.ok.inj h
  · rw [if_neg root] at h ⊢
    split at h
    · cases h
    · by_cases here : name = "."
      · rw [if_pos here] at h ⊢
        exact Except.ok.inj h
      · rw [if_neg here] at h ⊢
        by_cases up : name = ".."
        · rw [if_pos up] at h ⊢
          exact Except.ok.inj h
        · rw [if_neg up] at h ⊢
          split at h
          · cases h
          · exact Except.ok.inj h
    · cases h

theorem foldl_placeAfter_of_enter (h : names.foldlM t.enter start = .ok place) :
    names.foldl placeAfter start = place := by
  induction names generalizing start with
  | nil => exact Except.ok.inj h
  | cons name names ih =>
    rw [List.foldlM_cons] at h
    cases entered : t.enter start name with
    | error e =>
      rw [entered] at h
      cases h
    | ok next =>
      rw [entered] at h
      rw [List.foldl_cons, placeAfter_of_enter entered]
      exact ih h

/-- A file can be written only where the names of its path lead, and where no directory is. -/
theorem target_ok (h : t.target path = .ok place) :
    t.walk (FileTree.names path) = .ok place ∧ t.get? place ≠ some .directory := by
  unfold target at h
  split at h
  · cases h
  · split at h
    · cases h
    · split at h
      · cases h
      · split at h
        · cases h
        · next walked =>
          split at h
          · cases h
          · next free =>
            cases h
            exact ⟨walked, free⟩

/-- What is written to a path gets to the place of the path. -/
theorem placeOf_of_target (h : t.target path = .ok place) : placeOf path = place :=
  foldl_placeAfter_of_enter (target_ok h).1

/-! ## Names at the end of a path -/

/-- What stands at the end of a path, without a slash, becomes the end of the last name. -/
theorem exists_splitOn_append (stem : List Char) :
    ∃ first last, ∀ tail : List Char, '/' ∉ tail →
      (stem ++ tail).splitOn '/' = first ++ [last ++ tail] := by
  induction stem with
  | nil => exact ⟨[], [], fun tail h => by simp [List.splitOn_eq_singleton h]⟩
  | cons c stem ih =>
    obtain ⟨first, last, ih⟩ := ih
    by_cases slash : c = '/'
    · refine ⟨[] :: first, last, fun tail h => ?_⟩
      rw [List.cons_append, List.splitOn_cons_eq_if_modifyHead, ih tail h]
      simp [slash]
    · cases first with
      | nil =>
        refine ⟨[], c :: last, fun tail h => ?_⟩
        rw [List.cons_append, List.splitOn_cons_eq_if_modifyHead, ih tail h]
        simp [slash]
      | cons name first =>
        refine ⟨(c :: name) :: first, last, fun tail h => ?_⟩
        rw [List.cons_append, List.splitOn_cons_eq_if_modifyHead, ih tail h]
        simp [slash]

theorem exists_names_append (stem : String) :
    ∃ first last, ∀ tail : String, '/' ∉ tail.toList → tail ≠ "" →
      FileTree.names (stem ++ tail) = first ++ [last ++ tail] := by
  obtain ⟨first, last, split⟩ := exists_splitOn_append stem.toList
  let parts := (first.filter fun name => !name.isEmpty).map String.ofList
  have absolute : ∀ tail : String, '/' ∉ tail.toList →
      ((stem ++ tail).toList.head? = some '/' ↔ stem.toList.head? = some '/') := by
    intro tail h
    rw [String.toList_append, List.head?_append]
    cases head : stem.toList.head? with
    | some c => simp
    | none =>
      rw [Option.none_or]
      refine ⟨fun c => absurd (List.mem_of_mem_head? c) h, fun c => by cases c⟩
  refine ⟨if stem.toList.head? = some '/' then "/" :: parts else parts, String.ofList last,
    fun tail h nonempty => ?_⟩
  have tail_ne : tail.toList ≠ [] := by simpa using nonempty
  have named : String.ofList (last ++ tail.toList) = String.ofList last ++ tail := by
    simp
  unfold FileTree.names
  rw [String.toList_append, split tail.toList h, ← String.toList_append]
  simp only [absolute tail h, List.filter_append, List.map_append]
  split <;> simp [parts, tail_ne]

/-- The last name of a long enough path is none with a meaning of its own. -/
theorem append_ne_of_length (last : String) {tail name : String} (long : 2 < tail.length)
    (short : name.length ≤ 2) : last ++ tail ≠ name := by
  intro same
  have := congrArg String.length same
  rw [String.length_append] at this
  omega

theorem placeAfter_append (place : Place) (last : String) {tail : String} (long : 2 < tail.length) :
    placeAfter place (last ++ tail) = place ++ [last ++ tail] := by
  unfold placeAfter
  rw [if_neg (append_ne_of_length last long (by decide)),
    if_neg (append_ne_of_length last long (by decide)),
    if_neg (append_ne_of_length last long (by decide))]

/-- The place of a path with a long enough end without a slash. -/
theorem exists_placeOf_append (stem : String) :
    ∃ (above : Place) (last : String), ∀ tail : String, '/' ∉ tail.toList →
      2 < tail.length → placeOf (stem ++ tail) = above ++ [last ++ tail] := by
  obtain ⟨first, last, named⟩ := exists_names_append stem
  refine ⟨first.foldl placeAfter [], last, fun tail h long => ?_⟩
  have nonempty : tail ≠ "" := by
    rintro rfl
    simp at long
  rw [placeOf, named tail h nonempty, List.foldl_append]
  exact placeAfter_append _ last long

end FileTree

namespace DayFiles

open FileTree

/-- The path of the archive of a day. -/
def archiveFor (s : DayFiles) (date : Date) : String := s.pathFor date ++ ".lz4"

/-- The end of the name of a day's file, or of its archive. -/
def nameEnd (archived : Bool) (date : Date) : String :=
  "-" ++ date.render ++ if archived then ".log.lz4" else ".log"

theorem toList_nameEnd (archived : Bool) (date : Date) :
    (nameEnd archived date).toList =
      '-' :: (date.render.toList ++ (if archived then ".log.lz4" else ".log").toList) := by
  simp [nameEnd]

theorem notMem_nameEnd (archived : Bool) (date : Date) :
    '/' ∉ (nameEnd archived date).toList := by
  have render := date.notMem_render (c := '/') (by decide) (by decide) (by decide)
  cases archived <;> simp [toList_nameEnd, render]

theorem length_nameEnd (archived : Bool) (date : Date) : 2 < (nameEnd archived date).length := by
  have ending : 4 ≤ (if archived then ".log.lz4" else ".log").length := by
    cases archived <;> decide
  rw [nameEnd, String.length_append]
  omega

/-- The end of a name says which day it is of, and whether it is that of an archive. -/
theorem nameEnd_injective {archived archived' : Bool} {date date' : Date}
    (h : nameEnd archived date = nameEnd archived' date') :
    archived = archived' ∧ date = date' := by
  have h := congrArg String.toList h
  rw [toList_nameEnd, toList_nameEnd] at h
  have last := congrArg List.getLast? h
  cases archived <;> cases archived'
  · have render := List.append_cancel_right (List.cons.inj h).2
    exact ⟨rfl, Date.render_injective (String.toList_injective render)⟩
  · simp [List.getLast?_cons, List.getLast?_append] at last
  · simp [List.getLast?_cons, List.getLast?_append] at last
  · have render := List.append_cancel_right (List.cons.inj h).2
    exact ⟨rfl, Date.render_injective (String.toList_injective render)⟩

theorem join_append (directory name : String) {tail : String} (h : '/' ∉ tail.toList) :
    join directory (name ++ tail) = join directory name ++ tail := by
  have absolute : (name ++ tail).toList.head? = some '/' ↔ name.toList.head? = some '/' := by
    rw [String.toList_append, List.head?_append]
    cases name.toList.head? with
    | some c => simp
    | none =>
      rw [Option.none_or]
      exact ⟨fun c => absurd (List.mem_of_mem_head? c) h, fun c => by cases c⟩
  unfold join
  simp only [absolute]
  split
  · rfl
  · split <;> simp [String.append_assoc]

variable (s : DayFiles)

/-- The path of a day's file, or of its archive. -/
def filePath (archived : Bool) (date : Date) : String :=
  if archived then s.archiveFor date else s.pathFor date

theorem filePath_eq (archived : Bool) (date : Date) :
    s.filePath archived date = join s.directory s.filePrefix ++ nameEnd archived date := by
  have file : s.pathFor date = join s.directory s.filePrefix ++ nameEnd false date := by
    rw [← join_append _ _ (notMem_nameEnd false date)]
    simp [pathFor, fileName, nameEnd, String.append_assoc]
  cases archived with
  | false => exact file
  | true =>
    show s.pathFor date ++ ".lz4" = _
    rw [file]
    simp [nameEnd, String.append_assoc]

/-- A path is that of one day, and of its file or its archive. -/
theorem eq_of_filePath (archived archived' : Bool) {date date' : Date}
    (h : s.filePath archived date = s.filePath archived' date') :
    archived = archived' ∧ date = date' := by
  rw [filePath_eq, filePath_eq] at h
  exact nameEnd_injective (String.append_right_inj _ |>.1 h)

/-- Different days have different files. -/
theorem pathFor_injective {date date' : Date} (h : s.pathFor date = s.pathFor date') :
    date = date' :=
  (s.eq_of_filePath false false h).2

/-- The place of a day file or an archive says which day and which of both it is. -/
theorem eq_of_placeOf (archived archived' : Bool) {date date' : Date}
    (h : placeOf (s.filePath archived date) = placeOf (s.filePath archived' date')) :
    archived = archived' ∧ date = date' := by
  obtain ⟨above, last, placed⟩ := exists_placeOf_append (join s.directory s.filePrefix)
  rw [filePath_eq, filePath_eq, placed _ (notMem_nameEnd _ _) (length_nameEnd _ _),
    placed _ (notMem_nameEnd _ _) (length_nameEnd _ _)] at h
  have name := (List.append_inj' h rfl).2
  simp only [List.cons.injEq, and_true, String.append_right_inj] at name
  exact nameEnd_injective name

/-- The files of the days are no directories that are in every file tree. -/
theorem isAnchor_of_placeOf (archived : Bool) {date : Date} {place : Place}
    (h : placeOf (s.filePath archived date) = place) : isAnchor place = false := by
  obtain ⟨above, last, placed⟩ := exists_placeOf_append (join s.directory s.filePrefix)
  have long := length_nameEnd archived date
  rw [filePath_eq, placed _ (notMem_nameEnd _ _) long] at h
  subst h
  exact isAnchor_concat above (append_ne_of_length last long (by decide))
    (append_ne_of_length last long (by decide))

end DayFiles

end FeedCapture
