import FeedCapture.Proofs.Files.Archiving
import FeedCapture.Proofs.Files.Paths

/-!
# What the files hold

Opening a file changes no other file and no content, appending to a file changes that file alone,
and compressing moves the content of a file to its archive.

## Main definitions

* `FileTree.fileAt?`, `FileTree.fileOf?` — the file at a place, or the one that a path leads to
* `FileTree.contentOf` — the content of the file that a path leads to
-/

namespace FeedCapture.FileTree

open Compression

/-- The file at a place; a directory is none. -/
def fileAt? (t : FileTree) (place : Place) : Option Node :=
  (t.get? place).filter fun node => node ≠ .directory

/-- What a file holds. -/
def Node.bytes : Node → Bytes
  | .directory => []
  | .file content => content
  | .archive content => content
  | .unfinished content => content

/-- The file that a path leads to. -/
def fileOf? (t : FileTree) (path : String) : Option Node := t.fileAt? (placeOf path)

/-- The content of the file that a path leads to; nothing if there is none. -/
def contentOf (t : FileTree) (path : String) : Bytes := t.contentAt (placeOf path)

variable {t t' : FileTree}

theorem contentOf_eq {path : String} {place : Place} (h : placeOf path = place) :
    t.contentOf path = t.contentAt place := congrArg t.contentAt h

theorem contentOf_congr (same : ∀ place, t'.contentAt place = t.contentAt place) (path : String) :
    t'.contentOf path = t.contentOf path := same _

theorem contentOf_empty (path : String) : contentOf {} path = [] := by
  unfold contentOf contentAt get?
  split <;> simp_all

/-- What is not there has no content. -/
theorem contentAt_of_none {place : Place} (h : t.get? place = none) : t.contentAt place = [] := by
  simp [contentAt, h]

theorem contentAt_congr {place : Place} (h : t'.get? place = t.get? place) :
    t'.contentAt place = t.contentAt place := by
  simp [contentAt, h]

theorem isAnchor_of_get? {place : Place} (h : t.get? place = none) : isAnchor place = false := by
  cases anchor : isAnchor place with
  | false => rfl
  | true => simp [get?, anchor] at h

/-! ## Files -/

theorem fileOf?_eq {path : String} {place : Place} (h : placeOf path = place) :
    t.fileOf? path = t.fileAt? place := congrArg t.fileAt? h

theorem fileOf?_congr {path : String}
    (same : ∀ place, placeOf path = place → t'.fileAt? place = t.fileAt? place) :
    t'.fileOf? path = t.fileOf? path := same _ rfl

theorem fileAt?_congr {place : Place} (h : t'.get? place = t.get? place) :
    t'.fileAt? place = t.fileAt? place := by
  simp [fileAt?, h]

theorem fileAt?_insert_self (t : FileTree) {place : Place} {node : Node}
    (h : isAnchor place = false) (file : node ≠ .directory) :
    (t.insert place node).fileAt? place = some node := by
  simp [fileAt?, get?_insert_self t node h, file]

theorem fileAt?_insert_of_ne (t : FileTree) {place other : Place} (node : Node)
    (hne : other ≠ place) : (t.insert place node).fileAt? other = t.fileAt? other :=
  fileAt?_congr (get?_insert_of_ne t node hne)

/-- A directory where nothing was is no file. -/
theorem fileAt?_insert_directory {place : Place} (none : t.get? place = none) (other : Place) :
    (t.insert place .directory).fileAt? other = t.fileAt? other := by
  by_cases same : other = place
  · subst same
    simp [fileAt?, get?_insert_self t _ (isAnchor_of_get? none), none]
  · exact fileAt?_insert_of_ne t _ same

/-- What a place holds is the content of the file there. -/
theorem contentAt_eq (t : FileTree) (place : Place) :
    t.contentAt place = ((t.fileAt? place).map Node.bytes).getD [] := by
  unfold contentAt fileAt?
  cases t.get? place with
  | none => rfl
  | some node => cases node <;> rfl

/-- What a path leads to holds the content of the file there. -/
theorem contentOf_of_fileOf? {path : String} {node : Option Node} (h : t.fileOf? path = node) :
    t.contentOf path = (node.map Node.bytes).getD [] := by
  rw [← h]
  exact t.contentAt_eq (placeOf path)

/-- The same file has the same content. -/
theorem contentOf_of_same {path : String} (same : t'.fileOf? path = t.fileOf? path) :
    t'.contentOf path = t.contentOf path :=
  (contentOf_of_fileOf? same).trans (contentOf_of_fileOf? rfl).symm

theorem contentAt_of_fileAt? {place : Place} (h : t'.fileAt? place = t.fileAt? place) :
    t'.contentAt place = t.contentAt place := by
  rw [contentAt_eq, contentAt_eq, h]

theorem contentAt_of_file {place : Place} {content : Bytes}
    (h : t.fileAt? place = some (.file content)) : t.contentAt place = content := by
  rw [contentAt_eq, h]
  rfl

/-! ## Opening -/

theorem fileAt?_createDirectory {names : List String} (h : t.createDirectory names = .ok t')
    (place : Place) : t'.fileAt? place = t.fileAt? place := by
  unfold createDirectory at h
  split at h
  · cases h
  · split at h
    · cases h
    · split at h
      · cases h
      · split at h
        · cases h
        · next free =>
          cases h
          exact fileAt?_insert_directory (by simpa using free) place

theorem fileAt?_createDirectoriesAt {names : List String}
    (h : t.createDirectoriesAt names = .ok t') (place : Place) :
    t'.fileAt? place = t.fileAt? place := by
  revert h
  fun_induction createDirectoriesAt t names generalizing t' with
  | case1 =>
    intro h
    cases h
    rfl
  | case2 names nonempty made created =>
    intro h
    cases h
    exact fileAt?_createDirectory created place
  | case3 => intro h; cases h
  | case4 names nonempty missing above reached made created ih =>
    intro h
    cases h
    exact (fileAt?_createDirectory created place).trans (ih reached)
  | case5 names nonempty missing above reached e failed there ih =>
    intro h
    cases h
    exact ih reached
  | case6 => intro h; cases h
  | case7 =>
    intro h
    cases h
    rfl
  | case8 => intro h; cases h

/-- Making directories changes no file. -/
theorem fileAt?_createDirectories {path : String} (h : t.createDirectories path = .ok t')
    (place : Place) : t'.fileAt? place = t.fileAt? place := by
  unfold createDirectories at h
  split at h
  · cases h
  · split at h
    · cases h
    · exact fileAt?_createDirectoriesAt h place

/-- Opening a file gets to the place of its path, changes no content and no other file. -/
theorem openForAppend_ok {path : String} {place : Place}
    (h : t.openForAppend path = .ok (t', place)) :
    placeOf path = place ∧ (∀ other, t'.contentAt other = t.contentAt other) ∧
      ∀ other, other ≠ place → t'.fileAt? other = t.fileAt? other := by
  unfold openForAppend at h
  split at h
  · cases h
  · next found =>
    cases h
    refine ⟨placeOf_of_target found, fun other => ?_, fun other hne => ?_⟩
    · split
      · rfl
      · next free =>
        have free : t.get? place = none := by simpa using free
        by_cases same : other = place
        · subst same
          rw [contentAt_of_none free, contentAt, get?_insert_self t _ (isAnchor_of_get? free)]
        · exact contentAt_congr (get?_insert_of_ne t _ same)
    · split
      · rfl
      · exact fileAt?_insert_of_ne t _ hne

/-! ## Appending -/

theorem contentAt_append_self (t : FileTree) {place : Place} (bytes : Bytes)
    (h : isAnchor place = false) :
    (t.append place bytes).contentAt place = t.contentAt place ++ bytes := by
  rw [append, contentAt, get?_insert_self t _ h]

theorem fileAt?_append_self (t : FileTree) {place : Place} (bytes : Bytes)
    (h : isAnchor place = false) :
    (t.append place bytes).fileAt? place = some (.file (t.contentAt place ++ bytes)) :=
  fileAt?_insert_self t h (by simp)

theorem fileAt?_append_of_ne (t : FileTree) {place other : Place} (bytes : Bytes)
    (hne : other ≠ place) : (t.append place bytes).fileAt? other = t.fileAt? other :=
  fileAt?_insert_of_ne t _ hne

/-! ## Compressing -/

section

variable {source archive other : Place} {w : Work}

theorem get?_perform_of_ne (hs : other ≠ source) (ha : other ≠ archive) (w : Work)
    (act : Compression.Act) :
    (perform source archive w act).tree.get? other = w.tree.get? other := by
  cases act with
  | openSource | copy bytes | encode | finish => rfl
  | createArchive | spill count | flush => exact get?_insert_of_ne w.tree _ ha
  | removeSource => exact get?_erase_of_ne w.tree hs

/-- Compressing concerns the file and its archive alone. -/
theorem get?_performAll_of_ne (hs : other ≠ source) (ha : other ≠ archive) (w : Work)
    (acts : List Compression.Act) :
    (performAll source archive w acts).tree.get? other = w.tree.get? other := by
  induction acts generalizing w with
  | nil => rfl
  | cons act acts ih => exact (ih _).trans (get?_perform_of_ne hs ha w act)

end

/-- What compressing does to the contents: nothing, or the content of the file is moved to its
archive. -/
inductive Compressed (t t' : FileTree) (path : String) : Prop where
  | same (all : ∀ place, t'.contentAt place = t.contentAt place)
  | moved (gone : t'.contentOf path = [])
      (kept : t'.contentOf (path ++ ".lz4") = t.contentOf path)
      (others : ∀ place, place ≠ placeOf path → place ≠ placeOf (path ++ ".lz4") →
        t'.contentAt place = t.contentAt place)

theorem compressed_compress (t : FileTree) {path : String}
    (apart : Apart (placeOf path) (placeOf (path ++ ".lz4"))) :
    Compressed t (t.compress path none).1 path := by
  rcases compress_none_cases t path with failed | ⟨source, archive, found, target, ran⟩
  · rw [failed]
    exact .same fun _ => rfl
  · obtain rfl := placeOf_of_target found
    obtain rfl := placeOf_of_target target
    rw [ran]
    obtain ⟨kept, gone⟩ := get?_performAll_acts apart t (t.contentOf path)
    refine .moved (contentAt_of_none gone) ?_ fun place ps pa => ?_
    · rw [contentOf, contentAt]
      exact kept ▸ rfl
    · exact contentAt_congr (get?_performAll_of_ne ps pa _ _)

end FeedCapture.FileTree
