import FeedCapture.Proofs.Files.Filing

/-!
# Compressing that fails on the way

Whichever step of compressing a day's file fails, the content of the day is not lost: the file is
removed by the last step alone, and by then its archive is complete.  The content may be copied in
pieces of any sizes, the encoder and the writer may hold back what they like for as long as they may,
and other files may be changed between any two steps.  An archive that is complete before is complete
with the content, and only once the encoder has ended the frame.

## Main definitions

* `Compression.Amid` — what comes of steps while other files are changed
* `Compression.Secured` — what is left when compressing succeeds, and when it fails

The main statement is `DayFiles.secured_of_compress`.
-/

namespace FeedCapture

namespace Compression

open FileTree

variable {source archive : Place} {t : FileTree} {w w' : Work} {steps dropped : List Act}
  {content : Bytes} {n : Nat}

/-! ## Steps and other work -/

/-- Two works have the same on the way, at the place of the file and at that of its archive. -/
structure Agree (source archive : Place) (w w' : Work) : Prop where
  stream : w'.stream = w.stream
  file : w'.tree.get? source = w.tree.get? source
  target : w'.tree.get? archive = w.tree.get? archive

/-- What comes of steps when anything may happen to other files before, between and after them. -/
inductive Amid (source archive : Place) : Work → List Act → Work → Prop
  | done (w : Work) : Amid source archive w [] w
  | step {w w' : Work} {a : Act} {steps : List Act}
      (rest : Amid source archive (perform source archive w a) steps w') :
      Amid source archive w (a :: steps) w'
  | meanwhile {w mid w' : Work} {steps : List Act} (agree : Agree source archive w mid)
      (rest : Amid source archive mid steps w') : Amid source archive w steps w'

theorem Agree.perform (h : Agree source archive w w') (apart : Apart source archive) (a : Act) :
    Agree source archive (perform source archive w a) (perform source archive w' a) := by
  obtain ⟨stream, file, target⟩ := h
  have step : w'.stream.step a = w.stream.step a := by rw [stream]
  cases a with
  | openSource | copy bytes | encode | finish => exact ⟨step, file, target⟩
  | createArchive | spill count | flush =>
    refine ⟨step, ?_, ?_⟩
    · simp only [Compression.perform, get?_insert_of_ne _ _ apart.ne.symm, file]
    · simp only [Compression.perform, get?_insert_self _ _ apart.target, step]
  | removeSource =>
    refine ⟨step, ?_, ?_⟩
    · simp only [Compression.perform, get?_erase_self _ apart.file]
    · simp only [Compression.perform, get?_erase_of_ne _ apart.ne, target]

theorem Agree.performAll (h : Agree source archive w w') (apart : Apart source archive)
    (steps : List Act) :
    Agree source archive (performAll source archive w steps)
      (performAll source archive w' steps) := by
  induction steps generalizing w w' with
  | nil => exact h
  | cons a steps ih => exact ih (h.perform apart a)

/-- What happens to other files makes no difference to the file and its archive. -/
theorem Amid.agree (h : Amid source archive w steps w') (apart : Apart source archive) :
    Agree source archive (performAll source archive w steps) w' := by
  induction h with
  | done w => exact ⟨rfl, rfl, rfl⟩
  | step _ ih => exact ih
  | @meanwhile w mid w' steps agree _ ih =>
    have same := agree.performAll apart steps
    exact ⟨ih.stream.trans same.stream, ih.file.trans same.file, ih.target.trans same.target⟩

/-- Steps are what comes of them when nothing else happens. -/
theorem amid_performAll (source archive : Place) (w : Work) (steps : List Act) :
    Amid source archive w steps (performAll source archive w steps) := by
  induction steps generalizing w with
  | nil => exact .done w
  | cons a steps ih => exact .step (ih _)

/-! ## What is left -/

/-- Some steps of a course do not remove the file, unless they are all of them. -/
theorem removeSource_notMem_take (h : Course content steps) (early : n < steps.length) :
    .removeSource ∉ steps.take n := by
  obtain ⟨body, rfl, still⟩ := exists_eq_concat_removeSource h
  rw [List.length_append, List.length_singleton] at early
  rw [List.take_append_of_le_length (by omega)]
  intro mem
  exact still (List.mem_of_mem_take mem)

/-- What is left of a file with a content and its archive when compressing succeeds, and when it
fails. -/
def Secured (file archive : Option Node) (content : Bytes) (done : Bool) : Prop :=
  if done then archive = some (.archive content) ∧ file = none else file = some (.file content)

/-- Some or all steps of compressing a file secure its content. -/
theorem secured_of_amid (apart : Apart source archive)
    (held : t.fileAt? source = some (.file content)) (course : Course content steps)
    (drops : ∀ a ∈ dropped, a.isSpill = true)
    (h : Amid source archive { tree := t } (steps.take n ++ dropped) w) :
    Secured (w.tree.fileAt? source) (w.tree.fileAt? archive) content (steps.length ≤ n) := by
  have agree := h.agree apart
  unfold Secured
  by_cases all : steps.length ≤ n
  · rw [List.take_of_length_le all] at agree
    obtain ⟨kept, gone⟩ := get?_performAll_course apart t course drops
    rw [if_pos (decide_eq_true all)]
    refine ⟨?_, ?_⟩
    · simp [fileAt?, agree.target, kept]
    · simp [fileAt?, agree.file, gone]
  · rw [if_neg (by simpa using all), ← held]
    have still : .removeSource ∉ steps.take n ++ dropped := by
      intro mem
      rcases List.mem_append.1 mem with step | drop
      · exact removeSource_notMem_take course (Nat.lt_of_not_le all) step
      · cases drops _ drop
    exact fileAt?_congr (agree.file.trans (get?_source_performAll apart.ne still))

/-- From the making of the archive on, it is complete only with the content, and only once the
encoder has ended the frame. -/
theorem eq_of_archive (apart : Apart source archive) (course : Course content steps)
    (created : 2 ≤ n) (drops : ∀ a ∈ dropped, a.isSpill = true)
    (h : Amid source archive { tree := t } (steps.take n ++ dropped) w) {c : Bytes}
    (complete : w.tree.fileAt? archive = some (.archive c)) :
    c = content ∧ .finish ∈ steps.take n := by
  have there := (h.agree apart).target
  rw [synced_take apart t course created dropped, stream_performAll] at there
  rw [fileAt?, there, Node.ofParts] at complete
  split at complete
  · next c' whole =>
    obtain ⟨same, -⟩ := Option.filter_eq_some_iff.1 complete
    obtain rfl := Node.archive.inj (Option.some.inj same)
    exact eq_of_content? course created drops whole
  · obtain ⟨same, -⟩ := Option.filter_eq_some_iff.1 complete
    cases same

end Compression

namespace DayFiles

open FileTree Compression

variable {s : DayFiles} {date : Date} {t : FileTree} {content : Bytes}

/-- **Compressing a day.**  When the file of a day is compressed and any step may fail: if
compressing succeeds, the archive is complete and has the content of the file, and the file is gone;
if it fails, the file is there with its content.  It succeeds when both files can be opened and no
step fails.  The same holds after any number of the steps, in whatever pieces the content is copied,
however much the encoder and the writer hold back, whether or not the writer can still write some of
it when a step has failed, and whatever happens to other files between the steps.  At no moment is the
file gone while the archive is not complete; and from its making on, the archive is complete only with
the content, once the encoder has ended the frame. -/
theorem secured_of_compress (held : t.fileOf? (s.pathFor date) = some (.file content)) :
    (∀ interruption,
      Secured ((t.compress (s.pathFor date) interruption).1.fileOf? (s.pathFor date))
        ((t.compress (s.pathFor date) interruption).1.fileOf? (s.archiveFor date)) content
        (t.compress (s.pathFor date) interruption).2) ∧
    (∀ source archive, t.target (s.pathFor date) = .ok source →
      t.target (s.archiveFor date) = .ok archive →
      (t.compress (s.pathFor date) none).2 = true ∧
      ∀ (steps dropped : List Compression.Act) (n : Nat) (w : Work), Course content steps →
        (∀ a ∈ dropped, a.isSpill = true) →
        Amid source archive { tree := t } (steps.take n ++ dropped) w →
        Secured (w.tree.fileOf? (s.pathFor date)) (w.tree.fileOf? (s.archiveFor date)) content
            (steps.length ≤ n) ∧
          (w.tree.fileOf? (s.pathFor date) = none →
            w.tree.fileOf? (s.archiveFor date) = some (.archive content)) ∧
          (2 ≤ n → ∀ c, w.tree.fileOf? (s.archiveFor date) = some (.archive c) →
            c = content ∧ .finish ∈ steps.take n)) := by
  have apart := s.apart_placeOf date
  refine ⟨fun interruption => ?_,
    fun source archive found target => ⟨?_, fun steps dropped n w course drops h => ?_⟩⟩
  · rcases compress_cases t (s.pathFor date) interruption with
      failed | ⟨source, archive, found, target, n, -, ran⟩
    · rw [failed]
      exact held
    · obtain rfl := placeOf_of_target found
      obtain rfl := placeOf_of_target target
      have whole : t.contentAt (placeOf (s.pathFor date)) = content := contentAt_of_file held
      rw [ran, whole]
      refine secured_of_amid apart held (course_acts content) (List.forall_mem_nil _) ?_
      rw [List.append_nil]
      exact amid_performAll _ _ _ _
  · obtain ⟨there, -⟩ := Option.filter_eq_some_iff.1 held
    rw [placeOf_of_target found] at there
    have target : t.target (s.pathFor date ++ ".lz4") = .ok archive := target
    simp [FileTree.compress, found, there, target]
  · obtain rfl := placeOf_of_target found
    obtain rfl := placeOf_of_target target
    have secured := secured_of_amid apart held course drops h
    refine ⟨secured, fun gone => ?_, fun created c complete => ?_⟩
    · unfold Secured at secured
      split at secured
      · exact secured.1
      · rw [show w.tree.fileAt? (placeOf (s.pathFor date)) = none from gone] at secured
        cases secured
    · exact eq_of_archive apart course created drops h complete

/-- A day with one record. -/
def oneDay : DayFiles where
  tree := ⟨[(["out"], .directory), (["out", "feed-2024-03-01.log"], .file [65, 10])]⟩
  directory := "out"
  filePrefix := "feed"

/-- When the last step fails, the complete archive stands beside the file. -/
theorem secured_of_compress_unremoved :
    oneDay.tree.fileOf? (oneDay.pathFor ⟨2024, 3, 1⟩) = some (.file [65, 10]) ∧
      let unremoved := oneDay.tree.compress (oneDay.pathFor ⟨2024, 3, 1⟩) (some 5)
      let removed := oneDay.tree.compress (oneDay.pathFor ⟨2024, 3, 1⟩) none
      unremoved.2 = false ∧
        unremoved.1.fileOf? (oneDay.pathFor ⟨2024, 3, 1⟩) = some (.file [65, 10]) ∧
      removed.2 = true ∧
        removed.1.fileOf? (oneDay.pathFor ⟨2024, 3, 1⟩) = none ∧
        removed.1.fileOf? (oneDay.archiveFor ⟨2024, 3, 1⟩) = some (.archive [65, 10]) := by
  have held : oneDay.tree.fileOf? (oneDay.pathFor ⟨2024, 3, 1⟩) = some (.file [65, 10]) := by
    decide +kernel
  have failed : (oneDay.tree.compress (oneDay.pathFor ⟨2024, 3, 1⟩) (some 5)).2 = false := by
    decide +kernel
  have opens : ∀ path, (oneDay.tree.target path).isOk = true →
      ∃ place, oneDay.tree.target path = .ok place := by
    intro path ok
    cases found : oneDay.tree.target path with
    | error fault =>
      rw [found] at ok
      cases ok
    | ok place => exact ⟨place, rfl⟩
  obtain ⟨source, found⟩ := opens (oneDay.pathFor ⟨2024, 3, 1⟩) (by decide +kernel)
  obtain ⟨archive, target⟩ := opens (oneDay.archiveFor ⟨2024, 3, 1⟩) (by decide +kernel)
  obtain ⟨secured, opened⟩ := secured_of_compress held
  obtain ⟨done, -⟩ := opened _ _ found target
  have unremoved := secured (some 5)
  have removed := secured none
  rw [failed] at unremoved
  rw [done] at removed
  exact ⟨held, failed, unremoved, done, removed.2, removed.1⟩

end DayFiles

end FeedCapture
