import FeedCapture.Entries
import FeedCapture.Message

/-!
# File trees

Directories and files as a value.  A path is walked name by name, so the operations fail for the same
reasons and in the same order as those of a real file system.

A path leads on from the root or from the working directory.  Both are in every file tree, and so are
the directories that the working directory is in.  Where it is below the root is not known: a path
from the root, or one that leads down again from a directory above the working directory, is taken to
lead to something else than a path that stays below it.

A compressed file is kept as the bytes that it decompresses to.

## Main definitions

* `FileTree`, `FileTree.Node`, `FileTree.Fault`
* `FileTree.isAnchor` — the directories that are in every file tree
* `FileTree.walk` — where a path leads
* `FileTree.createDirectories`, `FileTree.openForAppend`, `FileTree.append`
-/

namespace FeedCapture

/-- Where something is: the names on the way to it.  The way begins at the root, with the name `/`, or
at the working directory; from there it may first go up, with the name `..` for every step. -/
abbrev Place := List String

/-- What can stand at a place. -/
inductive FileTree.Node where
  | directory
  | file (content : Bytes)
  /-- A compressed file with the bytes that it decompresses to. -/
  | archive (content : Bytes)
  /-- A compressed file that is not complete, with the bytes that it holds so far. -/
  | unfinished (content : Bytes)
deriving DecidableEq, Repr

/-- What there is besides the directories that are in every file tree; nothing is entered twice. -/
structure FileTree where
  entries : List (Place × FileTree.Node) := []
deriving DecidableEq, Repr

namespace FileTree

/-- Why an operation on a path fails. -/
inductive Fault where
  | notFound
  | alreadyThere
  | notADirectory
  | isADirectory
  | nameTooLong
  | nulByte
  /-- Something else, as the system words it. -/
  | other (text : String)
deriving DecidableEq, Repr

/-- The wording of each reason. -/
def Fault.message : Fault → String
  | .notFound => "No such file or directory (os error 2)"
  | .alreadyThere => "File exists (os error 17)"
  | .notADirectory => "Not a directory (os error 20)"
  | .isADirectory => "Is a directory (os error 21)"
  | .nameTooLong => "File name too long (os error 36)"
  | .nulByte => "file name contained an unexpected NUL byte"
  | .other text => text

/-! ## Paths -/

/-- The names in a path; a path from the root starts with the name `/`. -/
def names (path : String) : List String :=
  let parts := ((path.toList.splitOn '/').filter fun name => !name.isEmpty).map String.ofList
  if path.toList.head? = some '/' then "/" :: parts else parts

/-- A path and a name below it; a name from the root stands for itself. -/
def join (directory name : String) : String :=
  if name.toList.head? = some '/' || directory = "" then name
  else if directory.toList.getLast? = some '/' then directory ++ name
  else directory ++ "/" ++ name

/-- The directories that are in every file tree: the root, the working directory, and those that the
working directory is in. -/
def isAnchor (place : Place) : Bool := place = ["/"] || place.all fun name => name = ".."

/-- Where the directory is that something is in; the root is in itself. -/
def parent (place : Place) : Place :=
  if place = ["/"] then place
  else if isAnchor place then place ++ [".."]
  else place.dropLast

/-- What stands at a place. -/
def get? (t : FileTree) (place : Place) : Option Node :=
  if isAnchor place then some .directory else t.entries.lookup place

/-- Puts something at a place. -/
def insert (t : FileTree) (place : Place) (node : Node) : FileTree :=
  ⟨(place, node) :: t.entries.filter fun e => e.1 ≠ place⟩

/-- Takes away what stands at a place. -/
def erase (t : FileTree) (place : Place) : FileTree :=
  ⟨t.entries.filter fun e => e.1 ≠ place⟩

/-- Goes on by one name.  There must be a directory to start from. -/
def enter (t : FileTree) (place : Place) (name : String) : Except Fault Place :=
  if name = "/" then .ok ["/"]
  else
    match t.get? place with
    | none => .error .notFound
    | some .directory =>
      if name = "." then .ok place
      else if name = ".." then .ok (parent place)
      else if 255 < name.utf8ByteSize then .error .nameTooLong
      else .ok (place ++ [name])
    | some _ => .error .notADirectory

/-- Where names lead, starting at the working directory. -/
def walk (t : FileTree) (names : List String) : Except Fault Place := names.foldlM t.enter []

/-- What stands at the end of a walk. -/
def find? (t : FileTree) (names : List String) : Option Node :=
  match t.walk names with
  | .ok place => t.get? place
  | .error _ => none

/-- What a path leads to; a slash at its end asks for a directory. -/
def lookup? (t : FileTree) (path : String) : Option Node :=
  if path.isEmpty || path.toList.contains '\x00' || 4096 ≤ path.utf8ByteSize then none
  else t.find? (if path.endsWith "/" then names path ++ ["."] else names path)

/-! ## Directories -/

/-- Makes one directory in a directory that is there. -/
def createDirectory (t : FileTree) (names : List String) : Except Fault FileTree :=
  match names.getLast? with
  | none => .error .notFound
  | some name =>
    match t.walk names.dropLast with
    | .error e => .error e
    | .ok parent =>
      match t.enter parent name with
      | .error e => .error e
      | .ok place =>
        if (t.get? place).isSome then .error .alreadyThere
        else .ok (t.insert place .directory)

/-- The names without the dots at the end. -/
def dropDots (names : List String) : List String :=
  (names.reverse.dropWhile (fun name => name = ".")).reverse

/-- The names of the directory that holds what the names lead to. -/
def parentNames (names : List String) : List String := dropDots (dropDots names).dropLast

theorem length_dropDots_le (names : List String) : (dropDots names).length ≤ names.length := by
  have h : ∀ l : List String, (l.dropWhile (fun name => name = ".")).length ≤ l.length :=
    fun l => (List.dropWhile_suffix _).length_le
  simpa [dropDots] using h names.reverse

theorem length_parentNames_lt {names : List String} (h : names ≠ []) :
    (parentNames names).length < names.length := by
  have h1 := length_dropDots_le (dropDots names).dropLast
  have h2 := length_dropDots_le names
  have h3 : 0 < names.length := List.length_pos_iff.2 h
  rw [List.length_dropLast] at h1
  unfold parentNames
  omega

/-- Makes a directory and, where something is missing on the way, the directories above it. -/
def createDirectoriesAt (t : FileTree) (names : List String) : Except Fault FileTree :=
  if _h : names = [] then .ok t
  else
    match t.createDirectory names with
    | .ok t => .ok t
    | .error .notFound =>
      match t.createDirectoriesAt (parentNames names) with
      | .error e => .error e
      | .ok t =>
        match t.createDirectory names with
        | .ok t => .ok t
        | .error e => if t.find? names = some .directory then .ok t else .error e
    | .error e => if t.find? names = some .directory then .ok t else .error e
termination_by names.length
decreasing_by exact length_parentNames_lt (by assumption)

/-- Makes the directory of a path together with those above it. -/
def createDirectories (t : FileTree) (path : String) : Except Fault FileTree :=
  if path.toList.contains '\x00' then .error .nulByte
  else if 4096 ≤ path.utf8ByteSize then .error .nameTooLong
  else t.createDirectoriesAt (names path)

/-- Removes an empty directory, and tells whether it did. -/
def removeDirectory (t : FileTree) (path : String) : FileTree × Bool :=
  match t.walk (names path) with
  | .ok place =>
    let isEmpty := t.entries.all fun e => !(place.isPrefixOf e.1 && e.1 ≠ place)
    if t.get? place = some .directory && isEmpty && !isAnchor place then (t.erase place, true)
    else (t, false)
  | .error _ => (t, false)

/-! ## Files -/

/-- The place that a path names in a directory that is there. -/
def target (t : FileTree) (path : String) : Except Fault Place :=
  if path.toList.contains '\x00' then .error .nulByte
  else if 4096 ≤ path.utf8ByteSize then .error .nameTooLong
  else if path.isEmpty then .error .notFound
  else
    match t.walk (names path) with
    | .error e => .error e
    | .ok place =>
      if t.get? place = some .directory then .error .isADirectory else .ok place

/-- Opens a file for writing at its end; it is made if it is not there. -/
def openForAppend (t : FileTree) (path : String) : Except Fault (FileTree × Place) :=
  match t.target path with
  | .error e => .error e
  | .ok place => .ok (if (t.get? place).isSome then t else t.insert place (.file []), place)

/-- Writes a file anew. -/
def writeFile (t : FileTree) (path : String) (content : Bytes) : Except Fault FileTree :=
  match t.target path with
  | .error e => .error e
  | .ok place => .ok (t.insert place (.file content))

/-- The content of the file at a place; nothing if there is none. -/
def contentAt (t : FileTree) (place : Place) : Bytes :=
  match t.get? place with
  | some (.file content) => content
  | some (.archive content) => content
  | some (.unfinished content) => content
  | _ => []

/-- Adds bytes at the end of the file at a place. -/
def append (t : FileTree) (place : Place) (bytes : Bytes) : FileTree :=
  t.insert place (.file (t.contentAt place ++ bytes))

/-! ## One equation per operation -/

@[simp] theorem get?_insert_self (t : FileTree) {place : Place} (node : Node)
    (h : isAnchor place = false) : (t.insert place node).get? place = some node := by
  simp [get?, insert, h]

theorem get?_insert_of_ne (t : FileTree) {place other : Place} (node : Node)
    (hne : other ≠ place) : (t.insert place node).get? other = t.get? other := by
  have h : (other == place) = false := by simpa using hne
  simp only [get?, insert, List.lookup_cons, h, Entries.lookup_filter_of_ne hne]

theorem get?_erase_self (t : FileTree) {place : Place} (h : isAnchor place = false) :
    (t.erase place).get? place = none := by
  simp only [get?, erase, h, Bool.false_eq_true, if_false, Entries.lookup_filter_self]

theorem get?_erase_of_ne (t : FileTree) {place other : Place} (hne : other ≠ place) :
    (t.erase place).get? other = t.get? other := by
  simp only [get?, erase, Entries.lookup_filter_of_ne hne]

/-- A name that is neither that of the root nor a step up leads to none of these directories. -/
theorem isAnchor_concat (place : Place) {name : String} (root : name ≠ "/") (up : name ≠ "..") :
    isAnchor (place ++ [name]) = false := by
  simp [isAnchor, List.append_eq_singleton_iff, root, up]

end FileTree

end FeedCapture
