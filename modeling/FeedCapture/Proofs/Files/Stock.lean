import FeedCapture.Proofs.Files.Filing

/-!
# Day files while records are written

As long as no operation fails, the archive of a day, its file and the buffer together hold what the
archive and the file held before and then the lines of the records that were filed under the day, in
order.  Files may be compressed in the background at any time.

## Main definitions

* `DayFiles.Stocked`, `DayFiles.Filed` — what holds while records are written
* `DayFiles.Closed` — what holds in the end

The main statements are `Filed.write`, `Filed.flush`, `Filed.compressFile` and `Filed.close`.
-/

namespace FeedCapture.DayFiles

open FileTree

variable {s₀ s s' : DayFiles} {tree : FileTree} {day : OpenDay} {current : Option OpenDay}
  {filed : List (Date × Bytes)}

/-- What holds while records are written: `s₀` are the day files before, `current` is the open day,
and `filed` are the records with their days. -/
structure Stocked (s₀ s : DayFiles) (current : Option OpenDay) (filed : List (Date × Bytes)) :
    Prop where
  directory : s.directory = s₀.directory
  filePrefix : s.filePrefix = s₀.filePrefix
  placed : ∀ day ∈ current, day.path = s.pathFor day.date ∧ placeOf day.path = day.place
  contents : ∀ date, s.holds date ++ unflushed current date =
    s₀.holds date ++ linesOf date filed
  handed : ∀ path ∈ s.compressing, ∃ f ∈ filed, path = s.pathFor f.1
  once : s.compressing.Nodup
  /-- The open day and those after it were not handed over. -/
  later : ∀ date, (∀ day ∈ current, date.lt day.date = false) → s.pathFor date ∉ s.compressing
  /-- An archive is as it was until its file is compressed. -/
  untouched : ∀ date,
    s.pathFor date ∈ s.compressing ∨ (∀ day ∈ current, date.lt day.date = false) →
      s.archived date = s₀.archived date

namespace Stocked

/-- The open day is not the working directory. -/
theorem isAnchor_place (h : Stocked s₀ s (some day) filed) : isAnchor day.place = false := by
  obtain ⟨path, place⟩ := h.placed day rfl
  exact s.isAnchor_of_placeOf false (path ▸ place)

/-- Bytes that are written to the open day are the lines of the records that are filed with it. -/
theorem wrote {bytes : Bytes} {after : FileTree × OpenDay} {filed' : List (Date × Bytes)}
    (h : Stocked s₀ s (some day) filed) (wrote : Wrote s.tree day bytes after)
    (grown : ∀ date, linesOf date filed' =
      linesOf date filed ++ if day.date = date then bytes else [])
    (sub : ∀ f ∈ filed, f ∈ filed') (open? : Option OpenDay) :
    Stocked s₀ { s with tree := after.1, current := open? } (some after.2) filed' := by
  have placed := h.placed day rfl
  have found : placeOf (s.pathFor day.date) = day.place := placed.1 ▸ placed.2
  refine ⟨h.directory, h.filePrefix, ?_, fun date => ?_, ?_, h.once,
    fun date free => h.later date ?_, fun date kept => ?_⟩
  · intro day' hd
    cases hd
    rw [wrote.date, wrote.path, wrote.place]
    exact placed
  · rw [grown, ← List.append_assoc, ← h.contents date]
    exact wrote.holds placed date
  · intro path hp
    obtain ⟨f, hf, same⟩ := h.handed path hp
    exact ⟨f, sub f hf, same⟩
  · intro day' hd
    cases hd
    rw [← wrote.date]
    exact free _ rfl
  · rw [← h.untouched date]
    · exact contentOf_eq_of_ne true found wrote.contentAt_of_ne (.inl rfl)
    · refine kept.imp_right fun free day' hd => ?_
      cases hd
      rw [← wrote.date]
      exact free _ rfl

/-- A day was opened: nothing is written to it yet, and the files hold what they held. -/
structure Opened (s : DayFiles) (date : Date) (tree : FileTree) (day : OpenDay) : Prop where
  date : day.date = date
  path : day.path = s.pathFor day.date
  place : placeOf day.path = day.place
  empty : day.buffer = []
  same : ∀ place, tree.contentAt place = s.tree.contentAt place
  others : ∀ place, place ≠ day.place → tree.fileAt? place = s.tree.fileAt? place

theorem Opened.holds {date : Date} (opened : Opened s date tree day) (other : Date) :
    tree.contentOf (s.archiveFor other) ++ tree.contentOf (s.pathFor other) ++
      unflushed (some day) other = s.holds other := by
  have same := contentOf_congr opened.same
  simp [unflushed, opened.empty, same, DayFiles.holds, archived]

/-- The first day is opened. -/
theorem opened {date : Date} (h : Stocked s₀ s none filed)
    (opened : Opened s date tree day) (open? : Option OpenDay) :
    Stocked s₀ { s with tree, current := open? } (some day) filed := by
  have every : ∀ date : Date, ∀ day ∈ (none : Option OpenDay), date.lt day.date = false :=
    fun date day hd => by cases hd
  refine ⟨h.directory, h.filePrefix, ?_, fun date => ?_, h.handed, h.once,
    fun date _ => h.later date (every date), fun date _ => ?_⟩
  · intro day' hd
    cases hd
    exact ⟨opened.path, opened.place⟩
  · have contents := h.contents date
    simp only [unflushed, List.append_nil] at contents
    rw [← contents]
    exact opened.holds date
  · rw [← h.untouched date (.inr (every date))]
    exact contentOf_congr opened.same _

/-- The next day is opened, and the one before is handed over if files are compressed. -/
theorem next {date : Date} {c : OpenDay} {pending : List String}
    (h : Stocked s₀ s (some c) filed) (empty : c.buffer = [])
    (known : ∃ f ∈ filed, f.1 = c.date) (before : c.date.lt date = true)
    (opened : Opened s date tree day) (open? : Option OpenDay)
    (handed : pending = s.compressing ++ [c.path] ∨ pending = s.compressing) :
    Stocked s₀ { s with tree, current := open?, compressing := pending } (some day)
      filed := by
  have placed := h.placed c rfl
  have found : placeOf (s.pathFor c.date) = c.place := placed.1 ▸ placed.2
  have mem : ∀ path ∈ pending, path ∈ s.compressing ∨ path = s.pathFor c.date := by
    intro path hp
    rcases handed with rfl | rfl
    · simpa [placed.1] using hp
    · exact .inl hp
  -- a day that is not before the new one is not before the old one either
  have free : ∀ {d : Date}, d.lt date = false → ∀ day ∈ some c, d.lt day.date = false := by
    intro d hd day hday
    cases hday
    cases old : d.lt c.date with
    | false => rfl
    | true =>
      rw [Date.lt_trans old before] at hd
      cases hd
  have own : ∀ day ∈ some c, c.date.lt day.date = false := by
    intro day hday
    cases hday
    exact c.date.lt_irrefl
  have named : ∀ {d : Date}, s.pathFor d = s.pathFor c.date → d = c.date := by
    intro d same
    exact s.pathFor_injective same
  have upcoming : ∀ {d : Date}, (∀ day' ∈ some day, d.lt day'.date = false) → d.lt date = false :=
    fun hd => opened.date ▸ hd day rfl
  refine ⟨h.directory, h.filePrefix, ?_, fun d => ?_, fun path hp => ?_, ?_, fun d hd hp => ?_,
    fun d kept => ?_⟩
  · intro day' hd
    cases hd
    exact ⟨opened.path, opened.place⟩
  · have contents := h.contents d
    have none : unflushed (some c) d = [] := by simp [unflushed, empty]
    rw [none, List.append_nil] at contents
    rw [← contents]
    exact opened.holds d
  · rcases mem path hp with hp | rfl
    · exact h.handed path hp
    · obtain ⟨f, hf, same⟩ := known
      exact ⟨f, hf, by rw [same]; rfl⟩
  · rcases handed with rfl | rfl
    · refine List.nodup_append.2 ⟨h.once, by simp, ?_⟩
      intro path hp other ho
      rw [List.mem_singleton.1 ho, placed.1]
      rintro rfl
      exact h.later c.date own hp
    · exact h.once
  · have hd := upcoming hd
    rcases mem _ hp with hp | same
    · exact h.later d (free hd) hp
    · rw [named same, before] at hd
      cases hd
  · have same : tree.contentOf (s.archiveFor d) = s.archived d := contentOf_congr opened.same _
    refine same.trans ?_
    rcases kept with hp | hd
    · rcases mem _ hp with hp | same
      · exact h.untouched d (.inl hp)
      · rw [named same]
        exact h.untouched c.date (.inr own)
    · exact h.untouched d (.inr (free (upcoming hd)))

/-- The file of a day is compressed and is not waiting any more. -/
theorem compressed {date : Date} (h : Stocked s₀ s current filed) (none : s.archived date = [])
    (hp : s.pathFor date ∈ s.compressing) (done : Compressed s.tree tree (s.pathFor date)) :
    Stocked s₀ { s with tree, compressing := s.compressing.erase (s.pathFor date) } current
      filed := by
  have left : ∀ {d : Date}, s.pathFor d ∈ s.compressing.erase (s.pathFor date) →
      s.pathFor d ∈ s.compressing ∧ d ≠ date := by
    intro d hd
    obtain ⟨ne, hd⟩ := h.once.mem_erase_iff.1 hd
    refine ⟨hd, ?_⟩
    rintro rfl
    exact ne rfl
  refine ⟨h.directory, h.filePrefix, h.placed, fun d => ?_, fun path hp' => ?_, h.once.erase _,
    fun d free hd => ?_, fun d kept => ?_⟩
  · rw [← h.contents d]
    exact congrArg (· ++ _) (holds_of_compressed done none d)
  · exact h.handed path (List.mem_of_mem_erase hp')
  · exact h.later d free (left hd).1
  · have other : d ≠ date := by
      rcases kept with hd | free
      · exact (left hd).2
      · rintro rfl
        exact h.later _ free hp
    rw [← h.untouched d (kept.imp_left fun hd => (left hd).1)]
    exact contentOf_of_compressed done other true

/-- A file that was handed over is compressed. -/
theorem compressFile {path : String} (h : Stocked s₀ s current filed)
    (fresh : ∀ f ∈ filed, s₀.archived f.1 = []) (hp : path ∈ s.compressing) :
    Stocked s₀ (s.compressFile path) current filed := by
  obtain ⟨f, hf, rfl⟩ := h.handed path hp
  have none : s.archived f.1 = [] := by
    rw [h.untouched f.1 (.inl hp), fresh f hf]
  exact h.compressed none hp (compressed_compress s.tree (s.apart_placeOf f.1))

/-- All files that were handed over are compressed. -/
theorem settle (h : Stocked s₀ s current filed)
    (fresh : ∀ f ∈ filed, s₀.archived f.1 = []) :
    Stocked s₀ s.settle current filed := by
  unfold DayFiles.settle
  generalize hp : s.compressing = paths
  induction paths generalizing s with
  | nil => exact h
  | cons path paths ih =>
    refine ih (h.compressFile fresh (by simp [hp])) ?_
    simp [DayFiles.compressFile, hp]

end Stocked

/-! ## Writing records -/

/-- What holds after some records were written to new day files. -/
structure Filed (s₀ s : DayFiles) (records : List (Bytes × Int)) : Prop where
  day : s.current.map (·.date) = dayAfter none records
  stocked : Stocked s₀ s s.current (filings none records)

/-- What holds when the day files are closed after some records. -/
structure Closed (s₀ s : DayFiles) (records : List (Bytes × Int)) : Prop where
  directory : s.directory = s₀.directory
  filePrefix : s.filePrefix = s₀.filePrefix
  settled : s.compressing = []
  holds : ∀ date, s.holds date = s₀.holds date ++ linesOf date (filings none records)

theorem compressing_settle (s : DayFiles) : s.settle.compressing = [] := by
  unfold settle
  generalize hp : s.compressing = paths
  induction paths generalizing s with
  | nil => exact hp
  | cons path paths ih => exact ih _ (by simp [compressFile, hp])

/-- The day that is open is one that a record was filed under. -/
theorem exists_mem_filings {records : List (Bytes × Int)} {day : Date}
    (h : dayAfter none records = some day) : ∃ f ∈ filings none records, f.1 = day := by
  rcases records.eq_nil_or_concat with rfl | ⟨before, ⟨data, received⟩, rfl⟩
  · cases h
  · rw [List.concat_eq_append] at *
    rw [dayAfter_append] at h
    cases h
    exact ⟨(filedUnder (dayAfter none before) (Date.ofMillis received), data),
      by rw [filings_append]; simp [filings], rfl⟩

/-- A day that is opened met no obstacle. -/
theorem openDay_ok {date : Date} {obstacle : Option Obstacle} {notices : List Notice}
    (h : s.openDay date obstacle = (s', .ok day, notices)) :
    ∃ tree, s' = { s with tree } ∧ day.date = date ∧ Stocked.Opened s date tree day := by
  unfold openDay at h
  dsimp only at h
  split at h
  · cases h
  · split at h
    · cases h
    · next tree made =>
      split at h
      · cases h
      · split at h
        · cases h
        · next opened place found =>
          cases h
          obtain ⟨placed, same, others⟩ := openForAppend_ok found
          have directories := fileAt?_createDirectories made
          exact ⟨opened, rfl, rfl, rfl, rfl, placed, rfl,
            fun p => (same p).trans (contentAt_of_fileAt? (directories p)),
            fun p hne => (others p hne).trans (directories p)⟩

/-- The file for a date is the open one, or it is opened, after the open one is closed if it is of
an earlier day. -/
theorem dayFor_ok {date : Date} {obstacle : Option Obstacle} {notices : List Notice}
    (h : s.dayFor date obstacle = (s', .ok day, notices)) :
    (s.current = some day ∧ date.le day.date = true ∧ s' = s) ∨
      ∃ closed tree,
        (s.current = none ∧ closed = s ∨
          ∃ c, s.current = some c ∧ c.date.lt date = true ∧ closed = (s.rotate c).1) ∧
        s' = { closed with tree } ∧ day.date = date ∧ Stocked.Opened closed date tree day := by
  unfold dayFor at h
  cases current : s.current with
  | none =>
    rw [current] at h
    obtain ⟨tree, moved, under, opened⟩ := openDay_ok h
    exact .inr ⟨s, tree, .inl ⟨rfl, rfl⟩, moved, under, opened⟩
  | some c =>
    rw [current] at h
    dsimp only at h
    split at h
    · next straggler =>
      cases h
      exact .inl ⟨rfl, straggler, rfl⟩
    · next later =>
      simp only [Prod.mk.injEq] at h
      obtain ⟨left, result, -⟩ := h
      obtain ⟨tree, moved, under, opened⟩ := openDay_ok (Prod.ext rfl (Prod.ext result rfl))
      have before : c.date.lt date = true := by simpa [Date.le] using later
      exact .inr ⟨(s.rotate c).1, tree, .inr ⟨c, rfl, before, rfl⟩, left.symm.trans moved, under,
        opened⟩

/-- A record that is written gets into the file for its date. -/
theorem writeDespite_ok {obstacle : Option Obstacle} {data : Bytes} {received : Int}
    {notices : List Notice} (h : s.writeDespite obstacle data received = (s', .ok (), notices)) :
    ∃ s₁ day, s.dayFor (Date.ofMillis received) obstacle = (s₁, .ok day, notices) ∧
      s' = { s₁ with
        tree := (day.putLine s₁.tree data).1
        current := some (day.putLine s₁.tree data).2 } := by
  unfold writeDespite at h
  split at h
  · cases h
  · next s₁ day opened found =>
    cases h
    exact ⟨s₁, day, found, rfl⟩

namespace Filed

variable {records : List (Bytes × Int)}

/-- Before the first record nothing is filed. -/
theorem new (closed : s.current = none) (idle : s.compressing = []) : Filed s s [] where
  day := by rw [closed]; rfl
  stocked := by
    rw [closed]
    refine ⟨rfl, rfl, fun _ hd => (by cases hd), fun date => ?_, ?_, ?_, ?_, fun _ _ => rfl⟩
    · rfl
    · simp [idle]
    · simp [idle]
    · simp [idle]

/-- The file for a record is that of the day that the record is filed under. -/
theorem dayFor {date : Date} {notices : List Notice} (h : Filed s₀ s records)
    (hd : s.dayFor date none = (s', .ok day, notices)) :
    Stocked s₀ s' (some day) (filings none records) ∧
      day.date = filedUnder (dayAfter none records) date := by
  have stocked := h.stocked
  rw [← h.day]
  rcases dayFor_ok hd with ⟨current, straggler, rfl⟩ | ⟨closed, tree, before, rfl, same, opened⟩
  · rw [current] at stocked ⊢
    exact ⟨stocked, by simp [filedUnder, straggler]⟩
  · rcases before with ⟨current, rfl⟩ | ⟨c, current, before, rfl⟩
    · rw [current] at stocked ⊢
      exact ⟨stocked.opened opened _, same⟩
    · rw [current] at stocked
      have known : ∃ f ∈ filings none records, f.1 = c.date :=
        exists_mem_filings (by rw [← h.day, current]; rfl)
      have wrote := wrote_flush s.tree stocked.isAnchor_place
      have flushed : Stocked s₀ _ _ (filings none records) :=
        stocked.wrote wrote (fun d => by simp) (fun f hf => hf) none
      refine ⟨flushed.next (buffer_flush _ _) ?_ ?_ ⟨opened.date, opened.path, opened.place,
        opened.empty, opened.same, opened.others⟩ none ?_, ?_⟩
      · rw [wrote.date]
        exact known
      · rw [wrote.date]
        exact before
      · rw [wrote.path]
        cases hc : s.compress with
        | true => exact .inl (by simp [rotate, hc])
        | false => exact .inr (by simp [rotate, hc])
      · have later : date.le c.date = false := by simp [Date.le, before]
        simp [current, filedUnder, later, same]

/-- A record that is written is filed with those before it. -/
theorem write {data : Bytes} {received : Int} {notices : List Notice}
    (h : Filed s₀ s records)
    (hw : s.writeDespite none data received = (s', .ok (), notices)) :
    Filed s₀ s' (records ++ [(data, received)]) := by
  obtain ⟨s₁, day, found, rfl⟩ := writeDespite_ok hw
  obtain ⟨stocked, under⟩ := h.dayFor found
  have wrote := wrote_putLine s₁.tree data stocked.isAnchor_place
  constructor
  · rw [dayAfter_append, ← under]
    exact congrArg some wrote.date
  · refine stocked.wrote wrote ?_ ?_ _
    · intro date
      rw [filings_append, filings, filings, linesOf_append, ← under]
    · intro f hf
      rw [filings_append]
      exact List.mem_append_left _ hf

/-- Flushing files nothing. -/
theorem flush (h : Filed s₀ s records) : Filed s₀ s.flush records := by
  unfold DayFiles.flush
  cases current : s.current with
  | none => exact h
  | some day =>
    obtain ⟨same, stocked⟩ := h
    rw [current] at same stocked
    have wrote := wrote_flush s.tree stocked.isAnchor_place
    exact ⟨by rw [← same]; exact congrArg some wrote.date,
      stocked.wrote wrote (fun d => by simp) (fun f hf => hf) _⟩

/-- Compressing in the background files nothing. -/
theorem compressFile {path : String} (h : Filed s₀ s records)
    (fresh : ∀ f ∈ filings none records, s₀.archived f.1 = []) (hp : path ∈ s.compressing) :
    Filed s₀ (s.compressFile path) records :=
  ⟨h.day, h.stocked.compressFile fresh hp⟩

/-- After the close each day holds what it held before, and then the lines of its records. -/
theorem close (h : Filed s₀ s records) (fresh : ∀ f ∈ filings none records, s₀.archived f.1 = []) :
    Closed s₀ s.close records := by
  have stocked := h.stocked
  cases current : s.current with
  | none =>
    rw [current] at stocked
    have closed : s.close = s.settle := by simp [DayFiles.close, current]
    rw [closed]
    have settled := stocked.settle fresh
    exact ⟨settled.directory, settled.filePrefix, compressing_settle s, fun date => by
      simpa [unflushed] using settled.contents date⟩
  | some day =>
    rw [current] at stocked
    have closed : s.close =
        DayFiles.settle { s with tree := (day.flush s.tree).1, current := none } := by
      simp [DayFiles.close, current]
    rw [closed]
    have flushed := stocked.wrote (wrote_flush s.tree stocked.isAnchor_place) (fun d => by simp)
      (fun f hf => hf) none
    have settled := flushed.settle fresh
    exact ⟨settled.directory, settled.filePrefix, compressing_settle _, fun date => by
      simpa [unflushed] using settled.contents date⟩

end Filed

end FeedCapture.DayFiles
