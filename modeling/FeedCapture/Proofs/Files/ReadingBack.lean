import FeedCapture.Proofs.Files.Separation

/-!
# Reading a day's file back

A record is its body and one of four line ends, and the body says nothing of which one it was.  What
is appended to the file of a day are the bodies of its records, each with a line feed; so the lines
that are read from it are these bodies, as long as no body has a line feed of its own.

## Main definitions

* `DayFiles.lineEnds` — what a record may have behind its body
* `DayFiles.readLines` — the lines of some bytes
* `DayFiles.InUse.filingsBy`, `DayFiles.recordsOf` — the records that acts write, with their days,
  and those of one day

The main statements are `splitOn_lines`, `Assigned.landed_run` and `readable_of_run`.
-/

namespace FeedCapture.DayFiles

open FileTree

variable {s₀ s s₁ s' : DayFiles} {u v : InUse} {day : OpenDay} {date : Date} {data : Bytes}
  {received : Int} {obstacle : Option Obstacle} {notices : List Notice}

/-! ## Records and their bodies -/

/-- What a record may have behind its body. -/
def lineEnds : List Bytes := [[], [13], [10], [13, 10]]

theorem dropEnd_append (byte : UInt8) (data : Bytes) : dropEnd byte (data ++ [byte]) = data := by
  simp [dropEnd]

theorem dropEnd_of_ne {byte : UInt8} (other : data.getLast? ≠ some byte) :
    dropEnd byte data = data := if_neg other

/-- The byte that is taken off is the only one that goes. -/
theorem dropEnd_cases (byte : UInt8) (data : Bytes) :
    data = dropEnd byte data ∨ data = dropEnd byte data ++ [byte] := by
  by_cases last : data.getLast? = some byte
  · obtain ⟨front, rfl⟩ := List.getLast?_eq_some_iff.1 last
    rw [dropEnd_append]
    exact .inr rfl
  · rw [dropEnd_of_ne last]
    exact .inl rfl

/-- A record is its body and a line end. -/
theorem exists_eq_recordBody_append (data : Bytes) :
    ∃ ending ∈ lineEnds, data = recordBody data ++ ending := by
  unfold recordBody
  rcases dropEnd_cases 10 data with feed | feed <;>
    rcases dropEnd_cases 13 (dropEnd 10 data) with ret | ret
  · refine ⟨[], by simp [lineEnds], ?_⟩
    rw [List.append_nil, ← ret]
    exact feed
  · refine ⟨[13], by simp [lineEnds], ?_⟩
    rw [← ret]
    exact feed
  · refine ⟨[10], by simp [lineEnds], ?_⟩
    rw [← ret]
    exact feed
  · refine ⟨[13, 10], by simp [lineEnds], ?_⟩
    rw [← List.singleton_append, ← List.append_assoc, ← ret]
    exact feed

/-- A body that does not end like a line is found with any line end behind it. -/
theorem recordBody_append {body ending : Bytes} (noReturn : body.getLast? ≠ some 13)
    (noFeed : body.getLast? ≠ some 10) (mem : ending ∈ lineEnds) :
    recordBody (body ++ ending) = body := by
  have returned : (body ++ [13]).getLast? ≠ some 10 := by simp
  simp only [lineEnds, List.mem_cons, List.not_mem_nil, or_false] at mem
  unfold recordBody
  rcases mem with rfl | rfl | rfl | rfl
  · rw [List.append_nil, dropEnd_of_ne noFeed, dropEnd_of_ne noReturn]
  · rw [dropEnd_of_ne returned, dropEnd_append]
  · rw [dropEnd_append, dropEnd_of_ne noReturn]
  · rw [← List.singleton_append, ← List.append_assoc, dropEnd_append, dropEnd_append]

/-! ## Lines -/

/-- The lines of some bytes, each without the line feed that ends it.  What follows the last line
feed is a line too, unless there is nothing. -/
def readLines (bytes : Bytes) : List Bytes :=
  let parts := bytes.splitOn 10
  if parts.getLast? = some [] then parts.dropLast else parts

/-- Cut at its line feeds, a sequence of lines gives their bodies, and nothing behind the last. -/
theorem splitOn_lines {bodies : List Bytes} (h : ∀ body ∈ bodies, 10 ∉ body) :
    (bodies.flatMap fun body => body ++ [10]).splitOn 10 = bodies ++ [[]] := by
  induction bodies with
  | nil => rfl
  | cons body bodies ih =>
    rw [List.forall_mem_cons] at h
    rw [List.flatMap_cons, List.append_assoc, List.singleton_append,
      List.splitOn_append_cons_self_of_not_mem h.1, ih h.2, List.cons_append]

theorem readLines_lines {bodies : List Bytes} (h : ∀ body ∈ bodies, 10 ∉ body) :
    readLines (bodies.flatMap fun body => body ++ [10]) = bodies := by
  simp [readLines, splitOn_lines h]

/-! ## The records of a day -/

/-- The records that are filed under a day. -/
def recordsOf (date : Date) (filed : List (Date × Bytes)) : List Bytes :=
  (filed.filter fun f => f.1 = date).map (·.2)

theorem linesOf_eq (date : Date) (filed : List (Date × Bytes)) :
    linesOf date filed = ((recordsOf date filed).map recordBody).flatMap fun body => body ++ [10] := by
  unfold linesOf recordsOf
  rw [List.flatMap_map, List.flatMap_map]
  rfl

namespace InUse

/-- The record that an act writes, with the day that it is filed under. -/
def filing? (u : InUse) : Act → Option (Date × Bytes)
  | .write obstacle data received =>
    match (u.files.writeDespite obstacle data received).2.1 with
    | .ok () => some (filedUnder (u.files.current.map (·.date)) (Date.ofMillis received), data)
    | .error _ => none
  | _ => none

/-- The records that acts in order write, with the days that they are filed under. -/
def filingsBy (u : InUse) : List Act → List (Date × Bytes)
  | [] => []
  | a :: rest =>
    (u.filing? a).toList ++
      match u.act? a with
      | none => []
      | some v => v.filingsBy rest

theorem filingsBy_cons {a : Act} (ha : u.act? a = some v) (rest : List Act) :
    u.filingsBy (a :: rest) = (u.filing? a).toList ++ v.filingsBy rest := by
  rw [filingsBy, ha]

/-- What an act writes is the record that is filed by it. -/
theorem written_act {a : Act} (ha : u.act? a = some v) :
    v.written.map (·.1) = u.written.map (·.1) ++ (u.filing? a).toList.map (·.2) := by
  cases change_of_act? ha with
  | wrote done => simp [filing?, done]
  | refused failed => simp [filing?, failed]
  | flushed | compressed => simp [filing?, compressFile]

/-- What was written by acts in order are the records that are filed by them. -/
theorem written_run {acts : List Act} (ran : u.run? acts = some v) :
    v.written.map (·.1) = u.written.map (·.1) ++ (u.filingsBy acts).map (·.2) := by
  induction acts generalizing u with
  | nil =>
    cases ran
    simp [filingsBy]
  | cons a acts ih =>
    obtain ⟨mid, ha, ran⟩ := Option.bind_eq_some_iff.1 ran
    rw [ih ran, written_act ha, filingsBy_cons ha, List.map_append, List.append_assoc]

end InUse

/-! ## What is appended to a file -/

/-- The file for a record is that of the day that the record is filed under, and nothing that will
be in the files has changed by the time it is open. -/
theorem Assigned.ready (h : Assigned s₀ s)
    (found : s.dayFor (Date.ofMillis received) obstacle = (s₁, .ok day, notices)) :
    day.date = filedUnder (s.current.map (·.date)) (Date.ofMillis received) ∧
      placeOf (s₀.pathFor day.date) = day.place ∧
      ∀ place, (day.flush s₁.tree).1.contentAt place = s.landed.contentAt place := by
  rcases dayFor_room found with ⟨open?, joins, rfl⟩ | ⟨closed, tree, room, rfl, own, opened⟩
  · refine ⟨?_, h.placeOf_eq open?, fun place => ?_⟩
    · simp [open?, filedUnder, joins]
    · rw [landed_of_some open?]
  · have path : s₀.pathFor day.date = day.path := by
      rw [opened.path, pathFor_congr room.config, h.pathFor_eq]
    refine ⟨own.trans room.filedUnder_eq.symm, by rw [path]; exact opened.place, fun place => ?_⟩
    · rw [flush_of_empty _ opened.empty, landed, ← room.tree]
      exact opened.same place

/-- A record that is written adds its line to the file of the day that it is filed under. -/
theorem Assigned.landed_write (h : Assigned s₀ s)
    (done : s.writeDespite obstacle data received = (s', .ok (), notices)) (date : Date) :
    s'.landed.contentOf (s₀.pathFor date) = s.landed.contentOf (s₀.pathFor date) ++
      linesOf date [(filedUnder (s.current.map (·.date)) (Date.ofMillis received), data)] := by
  obtain ⟨s₁, day, found, rfl⟩ := writeDespite_ok done
  obtain ⟨own, placed, ready⟩ := h.ready found
  have lined := lined_putLine s₁.tree data (s₀.isAnchor_of_placeOf false placed)
  have after : landed { s₁ with
      tree := (day.putLine s₁.tree data).1, current := some (day.putLine s₁.tree data).2 } =
        ((day.putLine s₁.tree data).2.flush (day.putLine s₁.tree data).1).1 := landed_of_some rfl
  rw [← own, after]
  by_cases same : day.date = date
  · subst same
    rw [contentOf_eq placed, contentOf_eq placed, ← ready]
    simpa [linesOf] using contentAt_of_file lined.file
  · have others : ∀ place, place ≠ day.place →
        contentAt ((day.putLine s₁.tree data).2.flush (day.putLine s₁.tree data).1).1 place =
          s.landed.contentAt place := by
      intro place hne
      rw [← ready]
      exact contentAt_of_fileAt? (lined.others place hne)
    have none : linesOf date [(day.date, data)] = [] := linesOf_eq_nil (by simpa using same)
    rw [none, List.append_nil]
    exact contentOf_eq_of_ne false placed others (.inr (Ne.symm same))

/-- Compressing the file of another day changes nothing of what will be in the file of a day. -/
theorem Assigned.landed_compressFile (h : Assigned s₀ s) {other : Date} (hne : date ≠ other) :
    (s.compressFile (s₀.pathFor other)).landed.contentOf (s₀.pathFor date) =
      s.landed.contentOf (s₀.pathFor date) := by
  have tree : ∀ place, placeOf (s₀.pathFor date) = place →
      (s.compressFile (s₀.pathFor other)).tree.fileAt? place = s.tree.fileAt? place := by
    intro place found
    exact fileAt?_compress_of_ne (placeOf_ne false false found (.inr hne.symm))
      (placeOf_ne false true found (.inr hne.symm)) none
  refine contentOf_of_same (fileOf?_congr fun place found => ?_)
  cases open? : s.current with
  | none =>
    have open' : (s.compressFile (s₀.pathFor other)).current = none := open?
    rw [landed_of_none open?, landed_of_none open']
    exact tree place found
  | some day =>
    have open' : (s.compressFile (s₀.pathFor other)).current = some day := open?
    rw [landed_of_some open?, landed_of_some open']
    exact fileAt?_flush_congr (h.isAnchor_current day open?) (tree place found)

/-- By an act that does not compress it, the file of a day grows by the line of the record that is
filed under the day, if there is one. -/
theorem Assigned.landed_act {a : Act} (h : Assigned s₀ u.files) (ha : u.act? a = some v)
    (still : a ≠ .compress (s₀.pathFor date)) :
    v.files.landed.contentOf (s₀.pathFor date) =
      u.files.landed.contentOf (s₀.pathFor date) ++ linesOf date (u.filing? a).toList := by
  cases InUse.change_of_act? ha with
  | wrote done =>
    have line := h.landed_write done date
    simpa [InUse.filing?, done] using line
  | @refused obstacle data received files e notices failed =>
    obtain ⟨closed, tree, -, -, same⟩ := writeDespite_error failed
    have shut : files.current = none := by rw [same]
    have landed : files.landed.contentOf (s₀.pathFor date) =
        u.files.landed.contentOf (s₀.pathFor date) := by
      rw [landed_of_none shut]
      exact contentOf_congr (fun place => contentAt_of_fileAt? (fileAt?_of_refused failed place)) _
    simpa [InUse.filing?, failed, linesOf] using landed
  | flushed => simp [InUse.filing?, linesOf]
  | @compressed path pending =>
    obtain ⟨other, rfl⟩ := h.handed path pending
    have hne : date ≠ other := by
      rintro rfl
      exact still rfl
    have landed := h.landed_compressFile hne
    simpa [InUse.filing?, linesOf, InUse.compressFile] using landed

/-- By acts that do not compress it, the file of a day grows by the lines of the records that are
filed under the day, in order. -/
theorem Assigned.landed_run {acts : List Act} (h : Assigned s₀ u.files)
    (ran : u.run? acts = some v) (still : .compress (s₀.pathFor date) ∉ acts) :
    v.files.landed.contentOf (s₀.pathFor date) =
      u.files.landed.contentOf (s₀.pathFor date) ++ linesOf date (u.filingsBy acts) := by
  induction acts generalizing u with
  | nil =>
    cases ran
    simp [InUse.filingsBy, linesOf]
  | cons a acts ih =>
    obtain ⟨mid, ha, ran⟩ := Option.bind_eq_some_iff.1 ran
    rw [List.mem_cons, not_or] at still
    rw [ih (h.act ha) ran still.2, h.landed_act ha (Ne.symm still.1), InUse.filingsBy_cons ha,
      linesOf_append_filed, List.append_assoc]

/-- Writing the buffer adds nothing to the file of a day that is not open. -/
theorem Assigned.contentOf_flush (h : Assigned s₀ s) (shut : ∀ c ∈ s.current, c.date ≠ date) :
    s.flush.tree.contentOf (s₀.pathFor date) = s.tree.contentOf (s₀.pathFor date) := by
  cases open? : s.current with
  | none => simp [DayFiles.flush, open?]
  | some c =>
    have flushed : s.flush.tree = (c.flush s.tree).1 := by simp [DayFiles.flush, open?]
    rw [flushed]
    exact contentOf_of_same (h.sameFiles_flush open? (Ne.symm (shut c open?)) false)

/-- When compressing the file of a day succeeds, its archive has the content. -/
theorem InUse.contentOf_archiveFor (ha : u.act? (.compress (s₀.pathFor date)) = some v)
    (compressed : v.left = u.left) :
    v.files.tree.contentOf (s₀.archiveFor date) = u.files.tree.contentOf (s₀.pathFor date) := by
  cases change_of_act? ha with
  | compressed pending =>
    have done : (u.files.tree.compress (s₀.pathFor date) none).2 = true := by
      by_contra failed
      simp [compressFile, failed] at compressed
    exact contentOf_of_fileOf? (archived_compress (s₀.apart_placeOf date) done).kept

/-- **A day's file can be read back.**  A record is its body and one of four line ends, and a body
that does not end like a line is the body of the record with any of them.  From a moment when the
file of a day is not open, while day files are used in any way and the file is not compressed, all
that is appended to it are the records of the day: when no body has a line feed, the lines that are
read from it are the bodies of the records in the order in which they were written, and nothing
stands behind the last.  When the file is compressed then, the archive has the same bytes. -/
theorem readable_of_run :
    (∀ data, ∃ ending ∈ lineEnds, data = recordBody data ++ ending) ∧
    (∀ body : Bytes, body.getLast? ≠ some 13 → body.getLast? ≠ some 10 →
      ∀ ending ∈ lineEnds, recordBody (body ++ ending) = body) ∧
    ∀ (s : DayFiles) (before since : List Act) (u v : InUse) (day : Date),
      s.current = none → s.compressing = [] → InUse.run? { files := s } before = some u →
      (∀ c ∈ u.files.current, c.date ≠ day) → u.run? since = some v →
      .compress (s.pathFor day) ∉ since →
      let records := recordsOf day (u.filingsBy since)
      v.written.map (·.1) = u.written.map (·.1) ++ (u.filingsBy since).map (·.2) ∧
      ∃ appended,
        v.files.flush.tree.contentOf (s.pathFor day) =
          u.files.tree.contentOf (s.pathFor day) ++ appended ∧
        ((∀ data ∈ records, 10 ∉ recordBody data) →
          appended.splitOn 10 = records.map recordBody ++ [[]] ∧
          readLines appended = records.map recordBody) ∧
        ∀ w, v.act? (.compress (s.pathFor day)) = some w → w.left = v.left →
          (∀ c ∈ v.files.current, c.date ≠ day) →
          w.files.tree.contentOf (s.archiveFor day) =
            u.files.tree.contentOf (s.pathFor day) ++ appended := by
  refine ⟨exists_eq_recordBody_append, fun body noReturn noFeed ending mem =>
    recordBody_append noReturn noFeed mem, fun s before since u v day closed idle ran shut ran'
      still => ?_⟩
  have assigned : Assigned s u.files := (Assigned.new closed idle).run ran
  have assigned' : Assigned s v.files := assigned.run ran'
  have grown := assigned.landed_run ran' still
  rw [linesOf_eq, landed, landed, assigned.contentOf_flush shut] at grown
  refine ⟨InUse.written_run ran', _, grown, fun plain => ?_, fun w ha compressed shut' => ?_⟩
  · have bodies : ∀ body ∈ (recordsOf day (u.filingsBy since)).map recordBody, 10 ∉ body :=
      List.forall_mem_map.2 plain
    exact ⟨splitOn_lines bodies, readLines_lines bodies⟩
  · rw [InUse.contentOf_archiveFor ha compressed, ← assigned'.contentOf_flush shut']
    exact grown

/-- Records of one day with each line end, one without a body, and one that comes after a record of
the next day was refused. -/
def spelled : List Act :=
  [.write none [65] 1709251200000, .write none [66, 13] 1709251200000, .flush,
    .write none [67, 10] 1709251200000, .write none [68, 13, 10] 1709251200000,
    .write none [13, 10] 1709251200000, .write (some (.file .isADirectory)) [69] 1709337600000,
    .write none [70, 13, 13, 10] 1709251200000]

/-- All bodies are read back, behind what the file had before. -/
theorem readable_of_run_spelled :
    ∃ v, InUse.run? { files := InUse.reopened } spelled = some v ∧ v.refused.length = 1 ∧
      ∃ appended, v.files.flush.tree.contentOf (InUse.reopened.pathFor ⟨2024, 3, 1⟩) =
          [48, 10] ++ appended ∧
        readLines appended = [[65], [66], [67], [68], [], [70, 13]] := by
  have whole : (InUse.run? { files := InUse.reopened } spelled).map (fun v => v.refused.length) =
      some 1 := by decide +kernel
  have records : recordsOf ⟨2024, 3, 1⟩ (InUse.filingsBy { files := InUse.reopened } spelled) =
      [[65], [66, 13], [67, 10], [68, 13, 10], [13, 10], [70, 13, 13, 10]] := by decide +kernel
  have content : InUse.reopened.tree.contentOf (InUse.reopened.pathFor ⟨2024, 3, 1⟩) = [48, 10] := by
    decide +kernel
  obtain ⟨v, ran, refused⟩ := Option.map_eq_some_iff.1 whole
  obtain ⟨-, -, readable⟩ := readable_of_run
  obtain ⟨-, appended, grown, lines, -⟩ := readable InUse.reopened [] spelled _ v ⟨2024, 3, 1⟩ rfl
    rfl rfl (by simp [InUse.reopened]) ran (by decide +kernel)
  rw [content] at grown
  rw [records] at lines
  exact ⟨v, ran, refused, appended, grown, (lines (by decide)).2⟩

end FeedCapture.DayFiles
