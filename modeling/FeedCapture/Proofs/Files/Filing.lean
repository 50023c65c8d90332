import FeedCapture.Proofs.Files.Contents

/-!
# Records and the files of their days

A record is filed under its date, or under the day whose file is open when that day is later.  What
is written to a day gets into its file or its buffer, and what is compressed gets from the file of a
day into its archive; other days are not touched.

## Main definitions

* `DayFiles.filings` — the days that records are filed under
* `DayFiles.holds`, `DayFiles.archived` — what a day holds, and what its archive holds
* `DayFiles.Wrote` — bytes were written to an open day
* `DayFiles.OpenDay.putLine` — the line of a record is written to an open day

The main statements are `wrote_put`, `Wrote.holds` and `holds_of_compressed`.
-/

namespace FeedCapture.DayFiles

open FileTree

/-! ## Filing -/

/-- The day that a record is filed under, when the file of a day is open or none is. -/
def filedUnder (day : Option Date) (date : Date) : Date :=
  match day with
  | none => date
  | some day => if date.le day then day else date

/-- The day whose file is open after some records, given as bytes and time of receipt. -/
def dayAfter (day : Option Date) (records : List (Bytes × Int)) : Option Date :=
  records.foldl (fun day r => some (filedUnder day (Date.ofMillis r.2))) day

/-- The records with the days that they are filed under. -/
def filings (day : Option Date) : List (Bytes × Int) → List (Date × Bytes)
  | [] => []
  | (data, received) :: rest =>
    (filedUnder day (Date.ofMillis received), data) ::
      filings (some (filedUnder day (Date.ofMillis received))) rest

/-- The lines of the records that are filed under a day. -/
def linesOf (date : Date) (filed : List (Date × Bytes)) : Bytes :=
  (filed.filter fun f => f.1 = date).flatMap fun f => line f.2

/-- What the archive of a day holds. -/
def archived (s : DayFiles) (date : Date) : Bytes := s.tree.contentOf (s.archiveFor date)

/-- What the archive and the file of a day hold. -/
def holds (s : DayFiles) (date : Date) : Bytes :=
  s.archived date ++ s.tree.contentOf (s.pathFor date)

/-- What is in the buffer for a day. -/
def unflushed (current : Option OpenDay) (date : Date) : Bytes :=
  match current with
  | none => []
  | some day => if day.date = date then day.buffer else []

theorem filings_append (day : Option Date) (xs ys : List (Bytes × Int)) :
    filings day (xs ++ ys) = filings day xs ++ filings (dayAfter day xs) ys := by
  induction xs generalizing day with
  | nil => rfl
  | cons r xs ih =>
    simp only [List.cons_append, filings, ih]
    rfl

theorem dayAfter_append (day : Option Date) (records : List (Bytes × Int)) (data : Bytes)
    (received : Int) :
    dayAfter day (records ++ [(data, received)]) =
      some (filedUnder (dayAfter day records) (Date.ofMillis received)) := by
  simp [dayAfter]

theorem linesOf_append (date : Date) (filed : List (Date × Bytes)) (f : Date × Bytes) :
    linesOf date (filed ++ [f]) =
      linesOf date filed ++ if f.1 = date then line f.2 else [] := by
  by_cases same : f.1 = date
  · simp [linesOf, same]
  · simp [linesOf, same]

theorem linesOf_append_filed (date : Date) (xs ys : List (Date × Bytes)) :
    linesOf date (xs ++ ys) = linesOf date xs ++ linesOf date ys := by
  simp [linesOf]

theorem linesOf_eq_nil {date : Date} {filed : List (Date × Bytes)} (h : ∀ f ∈ filed, f.1 ≠ date) :
    linesOf date filed = [] := by
  have dropped : filed.filter (fun f => f.1 = date) = [] :=
    List.filter_eq_nil_iff.2 fun f hf => by simpa using h f hf
  simp [linesOf, dropped]

/-! ## Buffered writing -/

/-- Bytes were written to an open day, into its file or its buffer. -/
structure Wrote (tree : FileTree) (day : OpenDay) (bytes : Bytes) (after : FileTree × OpenDay) :
    Prop where
  date : after.2.date = day.date
  path : after.2.path = day.path
  place : after.2.place = day.place
  content : after.1.contentAt day.place ++ after.2.buffer =
    tree.contentAt day.place ++ day.buffer ++ bytes
  /-- No other file is changed. -/
  others : ∀ place, place ≠ day.place → after.1.fileAt? place = tree.fileAt? place

variable {tree : FileTree} {day : OpenDay}

theorem Wrote.contentAt_of_ne {bytes : Bytes} {after : FileTree × OpenDay}
    (wrote : Wrote tree day bytes after) (place : Place) (hne : place ≠ day.place) :
    after.1.contentAt place = tree.contentAt place :=
  contentAt_of_fileAt? (wrote.others place hne)

theorem wrote_flush (tree : FileTree) (h : isAnchor day.place = false) :
    Wrote tree day [] (day.flush tree) := by
  unfold OpenDay.flush
  split
  · exact ⟨rfl, rfl, rfl, by simp, fun _ _ => rfl⟩
  · refine ⟨rfl, rfl, rfl, ?_, fun place hne => fileAt?_append_of_ne tree _ hne⟩
    simp [contentAt_append_self tree _ h]

@[simp] theorem buffer_flush (tree : FileTree) (day : OpenDay) :
    (day.flush tree).2.buffer = [] := by
  unfold OpenDay.flush
  split
  · next empty => simpa using empty
  · rfl

theorem Wrote.trans {bytes more : Bytes} {mid after : FileTree × OpenDay}
    (first : Wrote tree day bytes mid) (second : Wrote mid.1 mid.2 more after) :
    Wrote tree day (bytes ++ more) after where
  date := second.date.trans first.date
  path := second.path.trans first.path
  place := second.place.trans first.place
  content := by
    have content := second.content
    rw [first.place] at content
    rw [content, first.content, List.append_assoc]
  others place hne :=
    (second.others place (first.place ▸ hne)).trans (first.others place hne)

/-- Bytes are written once there is room for them: to the file if they would fill the buffer, which
is empty then, and into the buffer otherwise. -/
theorem exists_put_eq (tree : FileTree) (bytes : Bytes) (h : isAnchor day.place = false) :
    ∃ start : FileTree × OpenDay, Wrote tree day [] start ∧
      (bufferSize ≤ bytes.length → start.2.buffer = []) ∧
      day.put tree bytes = if bufferSize ≤ bytes.length
        then (start.1.append start.2.place bytes, start.2)
        else (start.1, { start.2 with buffer := start.2.buffer ++ bytes }) := by
  by_cases full : bufferSize < day.buffer.length + bytes.length
  · refine ⟨day.flush tree, wrote_flush tree h, fun _ => buffer_flush tree day, ?_⟩
    simp only [OpenDay.put, full, if_true]
  · refine ⟨(tree, day), ⟨rfl, rfl, rfl, by simp, fun _ _ => rfl⟩, fun large => ?_, ?_⟩
    · show day.buffer = []
      exact List.length_eq_zero_iff.1 (by omega)
    · simp only [OpenDay.put, full, if_false]

theorem wrote_put (tree : FileTree) (bytes : Bytes) (h : isAnchor day.place = false) :
    Wrote tree day bytes (day.put tree bytes) := by
  obtain ⟨start, wrote, empty, put⟩ := exists_put_eq tree bytes h
  rw [put, ← List.nil_append bytes]
  refine wrote.trans ?_
  have place := wrote.place
  split
  · next large =>
    refine ⟨rfl, rfl, rfl, ?_, fun place hne => fileAt?_append_of_ne _ _ hne⟩
    rw [contentAt_append_self _ _ (place ▸ h), empty large]
    simp
  · exact ⟨rfl, rfl, rfl, by simp, fun _ _ => rfl⟩

/-- The open file and its buffer with one line more. -/
def OpenDay.putLine (day : OpenDay) (tree : FileTree) (data : Bytes) : FileTree × OpenDay :=
  let (tree, day) := day.put tree (recordBody data)
  day.put tree [10]

theorem wrote_putLine (tree : FileTree) (data : Bytes) (h : isAnchor day.place = false) :
    Wrote tree day (line data) (day.putLine tree data) := by
  have body := wrote_put tree (recordBody data) h
  exact body.trans (wrote_put _ [10] (body.place ▸ h))

/-! ## What a day holds -/

variable {s : DayFiles}

/-- The file of a day and its archive are at two places. -/
theorem apart_placeOf (s : DayFiles) (date : Date) :
    Compression.Apart (placeOf (s.pathFor date)) (placeOf (s.archiveFor date)) where
  file := s.isAnchor_of_placeOf false rfl
  target := s.isAnchor_of_placeOf true rfl
  ne same := by cases (s.eq_of_placeOf true false same).1

/-- The file of a day and its archive have places of their own. -/
theorem contentOf_eq_of_ne (archived : Bool) {t t' : FileTree} {place : Place}
    {date other : Date} (placed : placeOf (s.pathFor date) = place)
    (others : ∀ p, p ≠ place → t'.contentAt p = t.contentAt p)
    (hne : archived = true ∨ other ≠ date) :
    t'.contentOf (s.filePath archived other) = t.contentOf (s.filePath archived other) := by
  refine others _ fun found => ?_
  obtain ⟨kind, same⟩ := s.eq_of_placeOf false archived (placed.trans found.symm)
  rcases hne with rfl | hne
  · cases kind
  · exact hne same.symm

/-- Bytes that are written to the open day are held by it, and no other day changes. -/
theorem Wrote.holds {bytes : Bytes} {after : FileTree × OpenDay}
    (wrote : Wrote s.tree day bytes after)
    (placed : day.path = s.pathFor day.date ∧ placeOf day.path = day.place) (date : Date) :
    holds { s with tree := after.1 } date ++ unflushed (some after.2) date =
      s.holds date ++ unflushed (some day) date ++ if day.date = date then bytes else [] := by
  have found : placeOf (s.pathFor day.date) = day.place := placed.1 ▸ placed.2
  have archive : after.1.contentOf (s.archiveFor date) = s.tree.contentOf (s.archiveFor date) :=
    contentOf_eq_of_ne true found wrote.contentAt_of_ne (.inl rfl)
  show after.1.contentOf (s.archiveFor date) ++ after.1.contentOf (s.pathFor date) ++ _ =
    s.tree.contentOf (s.archiveFor date) ++ s.tree.contentOf (s.pathFor date) ++ _ ++ _
  rw [archive]
  by_cases same : day.date = date
  · subst same
    simp only [unflushed, wrote.date, if_true, contentOf_eq found, List.append_assoc]
    rw [wrote.content]
    simp
  · have file : after.1.contentOf (s.pathFor date) = s.tree.contentOf (s.pathFor date) :=
      contentOf_eq_of_ne false found wrote.contentAt_of_ne (.inr (Ne.symm same))
    rw [file]
    simp [unflushed, wrote.date, same]

/-- Compressing the file of a day changes no other day. -/
theorem contentOf_of_compressed {t : FileTree} {date other : Date}
    (done : Compressed s.tree t (s.pathFor date)) (hne : other ≠ date) (archived : Bool) :
    t.contentOf (s.filePath archived other) = s.tree.contentOf (s.filePath archived other) := by
  cases done with
  | same all => exact contentOf_congr all _
  | moved gone kept others =>
    refine others _ (fun file => ?_) fun target => ?_
    · exact hne (s.eq_of_placeOf archived false file).2
    · exact hne (s.eq_of_placeOf archived true target).2

/-- Compressing moves what a day holds, as long as the archive held nothing. -/
theorem holds_of_compressed {t : FileTree} {date : Date}
    (done : Compressed s.tree t (s.pathFor date))
    (none : s.archived date = []) (other : Date) :
    t.contentOf (s.archiveFor other) ++ t.contentOf (s.pathFor other) = s.holds other := by
  by_cases same : other = date
  · subst same
    rw [holds, none, List.nil_append]
    cases done with
    | same all =>
      have archive : t.contentOf (s.archiveFor other) = s.archived other := contentOf_congr all _
      rw [archive, none, List.nil_append]
      exact contentOf_congr all _
    | moved gone kept others =>
      rw [gone, List.append_nil, ← kept]
      rfl
  · have archive : t.contentOf (s.archiveFor other) = s.tree.contentOf (s.archiveFor other) :=
      contentOf_of_compressed done same true
    have file : t.contentOf (s.pathFor other) = s.tree.contentOf (s.pathFor other) :=
      contentOf_of_compressed done same false
    rw [archive, file, holds, archived]

end FeedCapture.DayFiles
