import FeedCapture.FileTree.Compression

/-!
# What becomes of the content

The encoder makes blocks whenever it likes, and the writer writes parts whenever it likes.  Whatever
they do, no byte that is copied is lost on the way, the archive has the parts that are written, and
once the frame is ended and everything is written, it is a whole frame with the content.  Before that
it is none.

## Main definitions

* `Compression.Course` — the steps for a content, in any order in which they may come
* `Compression.Carries` — what is on the way until the frame is ended
* `Compression.Synced` — the archive has the parts that are written

The main statements are `course_acts`, `eq_of_content?` and `get?_performAll_course`.
-/

namespace FeedCapture.Compression

variable {source archive : Place} {w : Work} {s : Stream} {content : Bytes} {steps : List Act}
  {a : Act}

/-! ## Courses -/

/-- A step that only moves content towards the archive. -/
def Act.isCopying : Act → Bool
  | .copy _ => true
  | .encode => true
  | .spill _ => true
  | _ => false

/-- A step by which the writer writes. -/
def Act.isSpill : Act → Bool
  | .spill _ => true
  | _ => false

/-- The bytes that some steps copy. -/
def copied (steps : List Act) : Bytes :=
  steps.flatMap fun act =>
    match act with
    | .copy bytes => bytes
    | _ => []

/-- The steps that compress a content, in an order in which they may come.  Until the frame is ended,
bytes are copied in pieces of any sizes, the encoder makes blocks and the writer writes parts, as it
suits them; after that the writer may write before it is told to write all. -/
def Course (content : Bytes) (steps : List Act) : Prop :=
  ∃ moves spills : List Act, (∀ a ∈ moves, a.isCopying = true) ∧ copied moves = content ∧
    (∀ a ∈ spills, a.isSpill = true) ∧
    steps = opening ++ moves ++ .finish :: (spills ++ closing)

theorem copied_append (xs ys : List Act) : copied (xs ++ ys) = copied xs ++ copied ys :=
  List.flatMap_append

theorem copied_pieceActs (taken : Nat) (piece : Bytes) :
    copied (pieceActs taken piece) = piece := by
  unfold pieceActs
  split <;> simp [copied]

theorem isCopying_pieceActs (taken : Nat) (piece : Bytes) :
    ∀ a ∈ pieceActs taken piece, a.isCopying = true := by
  unfold pieceActs
  split <;> simp [Act.isCopying]

theorem copied_copying (taken : Nat) (ps : List Bytes) :
    copied (copying taken ps) = ps.flatten := by
  induction ps generalizing taken with
  | nil => rfl
  | cons piece ps ih => rw [copying, copied_append, copied_pieceActs, ih, List.flatten_cons]

theorem isCopying_copying (taken : Nat) (ps : List Bytes) :
    ∀ a ∈ copying taken ps, a.isCopying = true := by
  induction ps generalizing taken with
  | nil => simp [copying]
  | cons piece ps ih => exact List.forall_mem_append.2 ⟨isCopying_pieceActs taken piece, ih _⟩

/-- The steps for a content follow a course. -/
theorem course_acts (content : Bytes) : Course content (acts content) :=
  ⟨copying 0 (pieces content), [], isCopying_copying 0 _,
    (copied_copying 0 _).trans (flatten_pieces content), by simp, rfl⟩

/-- The file is removed by the last step of a course alone. -/
theorem exists_eq_concat_removeSource (h : Course content steps) :
    ∃ body, steps = body ++ [.removeSource] ∧ .removeSource ∉ body := by
  obtain ⟨moves, spills, copies, -, writes, rfl⟩ := h
  refine ⟨opening ++ moves ++ .finish :: (spills ++ [.flush]), by simp [closing], ?_⟩
  intro mem
  simp only [opening, List.mem_append, List.mem_cons, List.not_mem_nil, or_false, reduceCtorEq,
    false_or] at mem
  rcases mem with move | spill
  · cases copies _ move
  · cases writes _ spill

/-! ## What is on the way to the archive -/

namespace Stream

/-- The parts that were handed on to the writer, in order. -/
def handed (s : Stream) : List Lz4.Part := s.written ++ s.held

@[simp] theorem handed_spill (s : Stream) (count : Nat) : (s.spill count).handed = s.handed := by
  simp [spill, handed]

@[simp] theorem taken_begin (s : Stream) : s.begin.taken = s.taken := by
  unfold begin
  split <;> rfl

@[simp] theorem begun_begin (s : Stream) : s.begin.begun = true := by
  unfold begin
  split
  · assumption
  · rfl

@[simp] theorem written_begin (s : Stream) : s.begin.written = s.written := by
  unfold begin
  split <;> rfl

@[simp] theorem written_encode (s : Stream) : s.encode.written = s.written := by
  unfold encode
  split <;> rfl

@[simp] theorem begun_encode (s : Stream) : s.encode.begun = s.begun := by
  unfold encode
  split <;> rfl

/-- Once a block is made, nothing is left with the encoder. -/
@[simp] theorem taken_encode (s : Stream) : s.encode.taken = [] := by
  unfold encode
  split
  · assumption
  · rfl

end Stream

/-- With the making of the archive, everything begins anew. -/
theorem foldl_opening (s : Stream) (rest : List Act) :
    (opening ++ rest).foldl Stream.step s = rest.foldl Stream.step {} := rfl

/-- What was copied until the frame is ended: nothing was handed on, or a start and blocks, and what
is in no block is still with the encoder. -/
inductive Carries (content : Bytes) (s : Stream) : Prop
  | idle (new : s.begun = false) (handed : s.handed = []) (taken : s.taken = [])
      (none : content = [])
  | begun (begun : s.begun = true) (blocks : List Bytes)
      (handed : s.handed = .start :: blocks.map .block)
      (whole : blocks.flatten ++ s.taken = content)

namespace Carries

/-- Once the frame is begun, the blocks and what the encoder has taken in are the content. -/
theorem exists_blocks (h : Carries content s) (begun : s.begun = true) : ∃ blocks : List Bytes,
    s.handed = .start :: blocks.map .block ∧ blocks.flatten ++ s.taken = content := by
  cases h with
  | idle new => simp [begun] at new
  | begun _ blocks handed whole => exact ⟨blocks, handed, whole⟩

theorem begin (h : Carries content s) : Carries content s.begin := by
  cases h with
  | idle new handed taken none =>
    refine .begun (Stream.begun_begin s) [] ?_ (by simp [taken, none])
    obtain ⟨written, held⟩ := List.append_eq_nil_iff.1 handed
    simp [Stream.begin, new, Stream.handed, written, held]
  | begun begun blocks handed whole =>
    have same : s.begin = s := by simp [Stream.begin, begun]
    rw [same]
    exact .begun begun blocks handed whole

/-- Making a block loses nothing. -/
theorem encode (h : Carries content s) : Carries content s.encode := by
  by_cases taken : s.taken = []
  · have same : s.encode = s := by simp [Stream.encode, taken]
    rw [same]
    exact h
  · cases h with
    | idle new handed nothing none => exact absurd nothing taken
    | begun begun blocks handed whole =>
      refine .begun ?_ (blocks ++ [s.taken]) ?_ ?_
      · simp [Stream.encode, taken, begun]
      · unfold Stream.handed at handed
        simp [Stream.encode, taken, Stream.handed, ← List.append_assoc, handed]
      · simp [Stream.encode, taken, whole]

/-- A step that moves content takes in what it copies, and loses nothing. -/
theorem step (h : Carries content s) (moves : a.isCopying = true) :
    Carries (content ++ copied [a]) (s.step a) := by
  cases a with
  | copy bytes =>
    obtain ⟨blocks, handed, whole⟩ := h.begin.exists_blocks (Stream.begun_begin s)
    exact .begun (Stream.begun_begin s) blocks handed (by simp [Stream.step, copied, ← whole])
  | encode => simpa [copied, Stream.step] using h.encode
  | spill count =>
    have nothing : content ++ copied [.spill count] = content := List.append_nil content
    rw [nothing]
    cases h with
    | idle new handed taken none => exact .idle new (by simp [Stream.step, handed]) taken none
    | begun begun blocks handed whole =>
      exact .begun begun blocks (by simp [Stream.step, handed]) whole
  | _ => cases moves

/-- Ending the frame hands on a whole one. -/
theorem finish (h : Carries content s) : ∃ blocks : List Bytes,
    (s.step .finish).handed = Lz4.frame blocks ∧ blocks.flatten = content := by
  obtain ⟨blocks, handed, whole⟩ := h.begin.encode.exists_blocks (by simp)
  refine ⟨blocks, ?_, by simpa using whole⟩
  unfold Stream.handed at handed
  simp [Stream.step, Stream.handed, Lz4.frame, ← List.append_assoc, ← handed]

/-- Steps that move content copy it into what is handed on. -/
theorem moves (h : Carries content s) {moves : List Act}
    (all : ∀ a ∈ moves, a.isCopying = true) :
    Carries (content ++ copied moves) (moves.foldl Stream.step s) := by
  induction moves generalizing content s with
  | nil => simpa [copied] using h
  | cons a moves ih =>
    rw [List.forall_mem_cons] at all
    have rest := ih (h.step all.1) all.2
    rwa [List.append_assoc, ← copied_append] at rest

end Carries

/-- Since the making of the archive, what is copied is on the way. -/
theorem carries_moves {moves : List Act} (all : ∀ a ∈ moves, a.isCopying = true) :
    Carries (copied moves) (moves.foldl Stream.step {}) :=
  (Carries.idle rfl rfl rfl rfl : Carries [] {}).moves all

/-- Until the frame is ended, what is written is no whole frame. -/
theorem Carries.content?_eq_none (h : Carries content s) : Lz4.content? s.written = none := by
  cases complete : Lz4.content? s.written with
  | none => rfl
  | some c =>
    have stop : .stop ∈ s.handed := List.mem_append_left _ (Lz4.stop_mem_of_content? complete)
    cases h with
    | idle new handed => simp [handed] at stop
    | begun begun blocks handed => simp [handed] at stop

/-! ## Once the frame is ended -/

/-- A step in which the encoder does nothing. -/
def Act.isWriting : Act → Bool
  | .spill _ => true
  | .flush => true
  | .removeSource => true
  | _ => false

theorem Act.isWriting_of_isSpill (h : a.isSpill = true) : a.isWriting = true := by
  cases a with
  | spill count => rfl
  | _ => cases h

theorem Act.isCopying_of_isSpill (h : a.isSpill = true) : a.isCopying = true := by
  cases a with
  | spill count => rfl
  | _ => cases h

/-- While the encoder does nothing, nothing more is handed on. -/
theorem handed_of_isWriting {rest : List Act} (all : ∀ a ∈ rest, a.isWriting = true) :
    (rest.foldl Stream.step s).handed = s.handed := by
  induction rest generalizing s with
  | nil => rfl
  | cons a rest ih =>
    rw [List.forall_mem_cons] at all
    refine (ih all.2).trans ?_
    cases a with
    | spill count => exact s.handed_spill count
    | flush => exact s.handed_spill _
    | removeSource => rfl
    | _ => cases all.1

/-- Some steps of a course, from the making of the archive on: the frame is not ended, or the whole
content was copied before it was. -/
theorem take_of_course (h : Course content steps) {n : Nat} (created : 2 ≤ n) :
    (∃ moves, (∀ a ∈ moves, a.isCopying = true) ∧ steps.take n = opening ++ moves) ∨
      ∃ moves rest, (∀ a ∈ moves, a.isCopying = true) ∧ copied moves = content ∧
        (∀ a ∈ rest, a.isWriting = true) ∧ steps.take n = opening ++ moves ++ .finish :: rest := by
  obtain ⟨moves, spills, copies, whole, writes, rfl⟩ := h
  have settles : ∀ a ∈ spills ++ closing, a.isWriting = true := by
    refine List.forall_mem_append.2 ⟨fun a spill => a.isWriting_of_isSpill (writes a spill), ?_⟩
    simp [closing, Act.isWriting]
  have start : opening.take n = opening := List.take_of_length_le created
  by_cases early : n - opening.length ≤ moves.length
  · refine .inl ⟨moves.take (n - opening.length),
      fun a mem => copies a (List.mem_of_mem_take mem), ?_⟩
    rw [List.append_assoc, List.take_append, start, List.take_append_of_le_length early]
  · obtain ⟨m, later⟩ : ∃ m, n - opening.length - moves.length = m + 1 :=
      ⟨n - opening.length - moves.length - 1, by omega⟩
    refine .inr ⟨moves, (spills ++ closing).take m, copies, whole,
      fun a mem => settles a (List.mem_of_mem_take mem), ?_⟩
    rw [List.append_assoc, List.take_append, start, List.take_append,
      List.take_of_length_le (by omega), later, List.take_succ_cons, List.append_assoc]

/-- What is written by some steps of a course is a whole frame only once the encoder has ended the
frame, and then it has the content.  The writer may still write what it holds when a step fails. -/
theorem eq_of_content? (h : Course content steps) {n : Nat} (created : 2 ≤ n) {dropped : List Act}
    (drops : ∀ a ∈ dropped, a.isSpill = true) {c : Bytes}
    (complete : Lz4.content? ((steps.take n ++ dropped).foldl Stream.step s).written = some c) :
    c = content ∧ .finish ∈ steps.take n := by
  rcases take_of_course h created with
    ⟨moves, copies, taken⟩ | ⟨moves, rest, copies, rfl, writes, taken⟩
  · have all : ∀ a ∈ moves ++ dropped, a.isCopying = true :=
      List.forall_mem_append.2 ⟨copies, fun a drop => a.isCopying_of_isSpill (drops a drop)⟩
    have none := (carries_moves all).content?_eq_none
    rw [taken, List.append_assoc, foldl_opening, none] at complete
    cases complete
  · obtain ⟨blocks, handed, whole⟩ := (carries_moves copies).finish
    have settles : ∀ a ∈ rest ++ dropped, a.isWriting = true :=
      List.forall_mem_append.2 ⟨writes, fun a drop => a.isWriting_of_isSpill (drops a drop)⟩
    have still := handed_of_isWriting (s := (moves.foldl Stream.step {}).step .finish) settles
    rw [handed] at still
    rw [taken, List.append_assoc, List.append_assoc, foldl_opening, List.foldl_append,
      List.cons_append, List.foldl_cons] at complete
    refine ⟨?_, by simp [taken]⟩
    rw [← whole]
    refine Lz4.eq_of_content?_of_isPrefix ?_ complete
    rw [← still]
    exact List.prefix_append _ _

/-- A writer that holds nothing writes nothing. -/
theorem foldl_spills (none : s.held = []) {dropped : List Act}
    (drops : ∀ a ∈ dropped, a.isSpill = true) : dropped.foldl Stream.step s = s := by
  induction dropped with
  | nil => rfl
  | cons a dropped ih =>
    rw [List.forall_mem_cons] at drops
    have same : s.step a = s := by
      cases a with
      | spill count =>
        cases s
        simp_all [Stream.step, Stream.spill]
      | _ => cases drops.1
    rw [List.foldl_cons, same]
    exact ih drops.2

/-- All steps of a course together write a whole frame with the content, and leave nothing behind. -/
theorem exists_written_course (h : Course content steps) : ∃ blocks : List Bytes,
    (steps.foldl Stream.step s).written = Lz4.frame blocks ∧ blocks.flatten = content ∧
      (steps.foldl Stream.step s).held = [] := by
  obtain ⟨moves, spills, copies, rfl, writes, rfl⟩ := h
  obtain ⟨blocks, handed, whole⟩ := (carries_moves copies).finish
  refine ⟨blocks, ?_, whole, ?_⟩
  · have spilt := handed_of_isWriting (s := (moves.foldl Stream.step {}).step .finish)
      fun a mem => a.isWriting_of_isSpill (writes a mem)
    rw [handed] at spilt
    rw [← spilt]
    simp [opening, closing, Stream.step, Stream.spill, Stream.handed]
  · simp [closing, Stream.step, Stream.spill]

/-- If the writer wrote all before the frame is ended, what is written would be no whole frame. -/
example : Lz4.content? (List.foldl Stream.step {}
    [.openSource, .createArchive, .copy [65], .flush, .finish, .removeSource]).written = none := by
  decide

/-! ## What all steps leave behind -/

/-- A file and its archive have places of their own, and neither is that of a directory that is in
every file tree. -/
structure Apart (source archive : Place) : Prop where
  file : FileTree.isAnchor source = false
  target : FileTree.isAnchor archive = false
  ne : archive ≠ source

theorem performAll_append (source archive : Place) (w : Work) (xs ys : List Act) :
    performAll source archive w (xs ++ ys) =
      performAll source archive (performAll source archive w xs) ys := by
  simp [performAll]

theorem stream_performAll (source archive : Place) (w : Work) (acts : List Act) :
    (performAll source archive w acts).stream = acts.foldl Stream.step w.stream := by
  induction acts generalizing w with
  | nil => rfl
  | cons a acts ih =>
    have first : (perform source archive w a).stream = w.stream.step a := by cases a <;> rfl
    exact (ih _).trans (by rw [first]; rfl)

/-- The archive has the parts that the writer has written. -/
def Synced (archive : Place) (w : Work) : Prop :=
  w.tree.get? archive = some (.ofParts w.stream.written)

/-- Every step writes to the archive what the writer writes. -/
theorem Synced.perform (h : Synced archive w) (apart : Apart source archive) (a : Act) :
    Synced archive (perform source archive w a) := by
  unfold Synced at h ⊢
  cases a with
  | openSource => exact h
  | copy bytes => simpa [Compression.perform, Stream.step] using h
  | encode => simpa [Compression.perform, Stream.step] using h
  | finish => simpa [Compression.perform, Stream.step] using h
  | createArchive | spill count | flush => exact w.tree.get?_insert_self _ apart.target
  | removeSource => exact (w.tree.get?_erase_of_ne apart.ne).trans h

theorem Synced.performAll (h : Synced archive w) (apart : Apart source archive) (acts : List Act) :
    Synced archive (performAll source archive w acts) := by
  induction acts generalizing w with
  | nil => exact h
  | cons a acts ih => exact ih (h.perform apart a)

/-- From the making of the archive on, it has the parts that are written. -/
theorem synced_take (apart : Apart source archive) (t : FileTree) (h : Course content steps) {n : Nat}
    (created : 2 ≤ n) (rest : List Act) :
    Synced archive (performAll source archive { tree := t } (steps.take n ++ rest)) := by
  obtain ⟨more, taken⟩ : ∃ more, steps.take n = opening ++ more := by
    rcases take_of_course h created with ⟨moves, -, taken⟩ | ⟨moves, rest, -, -, -, taken⟩
    · exact ⟨moves, taken⟩
    · exact ⟨moves ++ .finish :: rest, by rw [taken, List.append_assoc]⟩
  have made : Synced archive (performAll source archive { tree := t } opening) :=
    t.get?_insert_self _ apart.target
  rw [taken, List.append_assoc, performAll_append]
  exact made.performAll apart _

/-- The file stays as it is until it is removed. -/
theorem get?_source_performAll (hne : archive ≠ source) (still : .removeSource ∉ steps) :
    (performAll source archive w steps).tree.get? source = w.tree.get? source := by
  induction steps generalizing w with
  | nil => rfl
  | cons a steps ih =>
    simp only [List.mem_cons, not_or] at still
    refine (ih still.2).trans ?_
    cases a with
    | openSource | copy bytes | encode | finish => rfl
    | createArchive | spill count | flush => exact w.tree.get?_insert_of_ne _ hne.symm
    | removeSource => exact absurd rfl still.1

/-- All steps of a course together leave the content in the archive, and no source. -/
theorem get?_performAll_course (apart : Apart source archive) (t : FileTree)
    (h : Course content steps) {dropped : List Act} (drops : ∀ a ∈ dropped, a.isSpill = true) :
    (performAll source archive { tree := t } (steps ++ dropped)).tree.get? archive =
        some (.archive content) ∧
      (performAll source archive { tree := t } (steps ++ dropped)).tree.get? source = none := by
  refine ⟨?_, ?_⟩
  · have long : 2 ≤ steps.length := by
      obtain ⟨moves, spills, -, -, -, rfl⟩ := h
      simp [opening, closing]
    have synced := synced_take apart t h long dropped
    obtain ⟨blocks, written, whole, none⟩ := exists_written_course (s := {}) h
    unfold Synced at synced
    rw [List.take_length, stream_performAll, List.foldl_append, foldl_spills none drops, written,
      FileTree.Node.ofParts, Lz4.content?_frame, whole] at synced
    exact synced
  · obtain ⟨body, rfl, -⟩ := exists_eq_concat_removeSource h
    have still : .removeSource ∉ dropped := fun mem => by cases drops _ mem
    rw [performAll_append, get?_source_performAll apart.ne still, performAll_append]
    exact FileTree.get?_erase_self _ apart.file

/-- All steps together leave the content in the archive, and no source. -/
theorem get?_performAll_acts (apart : Apart source archive) (t : FileTree) (content : Bytes) :
    (performAll source archive { tree := t } (acts content)).tree.get? archive =
        some (.archive content) ∧
      (performAll source archive { tree := t } (acts content)).tree.get? source = none := by
  have all := get?_performAll_course apart t (course_acts content) (List.forall_mem_nil _)
  rwa [List.append_nil] at all

end FeedCapture.Compression
