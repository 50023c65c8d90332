import FeedCapture.Proofs.Files.Directories

/-!
# Records that come after refused ones

A record that is refused leaves no trace, and one that comes after it is written as if there had
been none.  When the dates of records do not decrease, the file or the archive of each day has in
the end what the file had before, and then the lines of those records of the day that were written.

## Main definitions

* `DayFiles.InUse.filed` — the records that were written, with their dates
* `DayFiles.InUse.Enduring` — what holds while records are written or refused

The main statement is `InUse.endures_of_run`.
-/

namespace FeedCapture.DayFiles.InUse

open FileTree

variable {s₀ s : DayFiles} {u u' : InUse} {tried : List Date} {obstacle : Option Obstacle}
  {data : Bytes} {received : Int} {files : DayFiles} {notices : List Notice}

/-- The records that were written, with their dates. -/
def filed (u : InUse) : List (Date × Bytes) := u.written.map fun r => (Date.ofMillis r.2, r.1)

/-- What holds while records whose dates do not decrease are written or refused; `tried` are the
dates of all of them so far. -/
structure Enduring (s₀ : DayFiles) (u : InUse) (tried : List Date) : Prop where
  standing : Standing s₀ u.files (u.files.current.map (·.date)) u.filed
  known : ∀ f ∈ u.filed, f.1 ∈ tried
  written : ∀ day ∈ u.files.current, ∃ f ∈ u.filed, f.1 = day.date
  /-- The open file is of the latest date so far. -/
  latest : ∀ day ∈ u.files.current, ∀ date ∈ tried, date.le day.date = true
  /-- Once a record is refused, the days before its date are over. -/
  past : u.files.current = none → ∀ f ∈ u.filed, ∃ date ∈ tried, f.1.lt date = true

namespace Enduring

/-- Before the first record. -/
theorem new (closed : s.current = none) (idle : s.compressing = []) :
    Enduring s { files := s } [] where
  standing := by
    rw [closed]
    exact Standing.new closed idle
  known f hf := by cases hf
  written day hd := by rw [closed] at hd; cases hd
  latest day hd := by rw [closed] at hd; cases hd
  past _ f hf := by cases hf

variable (h : Enduring s₀ u tried)

include h

/-- A record whose date is not before those so far is filed under its date. -/
theorem filedUnder_eq (later : ∀ date ∈ tried, date.le (Date.ofMillis received) = true) :
    filedUnder (u.files.current.map (·.date)) (Date.ofMillis received) =
      Date.ofMillis received := by
  cases open? : u.files.current with
  | none => rfl
  | some day =>
    simp only [Option.map_some, filedUnder]
    split
    · next joins =>
      obtain ⟨f, hf, same⟩ := h.written day open?
      exact Date.le_antisymm (later _ (same ▸ h.known f hf)) joins
    · rfl

/-- A record that needs a file is of a day that was not written to. -/
theorem fresh (later : ∀ date ∈ tried, date.le (Date.ofMillis received) = true)
    (room : ∀ day ∈ u.files.current, day.date.lt (Date.ofMillis received) = true) :
    ∀ f ∈ u.filed, f.1 ≠ Date.ofMillis received := by
  intro f hf
  cases open? : u.files.current with
  | none =>
    obtain ⟨date, mem, lt⟩ := h.past open? f hf
    exact Date.ne_of_lt (Date.lt_of_lt_of_le lt (later date mem))
  | some day =>
    exact Date.ne_of_lt
      (Date.lt_of_le_of_lt (h.latest day open? _ (h.known f hf)) (room day open?))

/-- A record is written. -/
theorem write (later : ∀ date ∈ tried, date.le (Date.ofMillis received) = true)
    (done : u.files.writeDespite obstacle data received = (files, .ok (), notices)) :
    Enduring s₀ { u with files, written := u.written ++ [(data, received)] }
      (tried ++ [Date.ofMillis received]) := by
  have under := h.filedUnder_eq later
  obtain ⟨day, standing⟩ := h.standing.write h.written (h.fresh later) done
  rw [under] at day standing
  have filed : filed { u with files, written := u.written ++ [(data, received)] } =
      u.filed ++ [(Date.ofMillis received, data)] := by simp [InUse.filed]
  have own : ∀ c ∈ files.current, c.date = Date.ofMillis received := by
    intro c hc
    rw [hc] at day
    exact Option.some.inj day
  refine ⟨?_, fun f hf => ?_, fun c hc => ?_, fun c hc date mem => ?_, fun none => ?_⟩
  · rw [filed]
    exact standing
  · rw [filed] at hf
    exact (List.mem_append.1 hf).elim (fun hf => List.mem_append_left _ (h.known f hf))
      fun hf => by simp [List.mem_singleton.1 hf]
  · rw [filed]
    exact ⟨_, List.mem_append_right _ (List.mem_singleton.2 rfl), (own c hc).symm⟩
  · rw [own c hc]
    rcases List.mem_append.1 mem with mem | mem
    · exact later date mem
    · rw [List.mem_singleton.1 mem]
      exact Date.le_refl _
  · have none : files.current = .none := none
    rw [none] at day
    cases day

/-- A record is refused. -/
theorem refuse {e : Failure}
    (failed : u.files.writeDespite obstacle data received = (files, .error e, notices)) :
    Enduring s₀ { u with files, refused := u.refused ++ [e] }
      (tried ++ [Date.ofMillis received]) := by
  obtain ⟨closed, tree, room, prepared, rfl⟩ := writeDespite_error failed
  have before : Standing s₀ closed none u.filed ∧
      ∀ f ∈ u.filed, ∃ date ∈ tried ++ [Date.ofMillis received], f.1.lt date = true := by
    have standing := h.standing
    cases room with
    | idle none =>
      rw [none] at standing
      refine ⟨standing, fun f hf => ?_⟩
      obtain ⟨date, mem, lt⟩ := h.past none f hf
      exact ⟨date, List.mem_append_left _ mem, lt⟩
    | @rotated day open? before =>
      refine ⟨standing.rotated open? (h.written day open?), fun f hf => ?_⟩
      exact ⟨_, List.mem_append_right _ (List.mem_singleton.2 rfl),
        Date.lt_of_le_of_lt (h.latest day open? _ (h.known f hf)) before⟩
  obtain ⟨standing, past⟩ := before
  have none : ∀ day : OpenDay, day ∉ (none : Option OpenDay) := by simp
  refine ⟨standing.congr ⟨rfl, rfl, rfl⟩ rfl (fun place => ?_) fun day hd => absurd hd (none day),
    fun f hf => List.mem_append_left _ (h.known f hf), fun day hd => absurd hd (none day),
    fun day hd => absurd hd (none day), fun _ => past⟩
  rw [landed_of_none rfl, landed_of_none room.current]
  exact prepared.fileAt? place

/-- As long as no record comes, it counts what the files will have and which one is open. -/
theorem congr (day : u'.files.current.map (·.date) = u.files.current.map (·.date))
    (filed : u'.filed = u.filed)
    (standing : Standing s₀ u'.files (u.files.current.map (·.date)) u.filed) :
    Enduring s₀ u' tried := by
  have same : ∀ c ∈ u'.files.current, ∃ c' ∈ u.files.current, c'.date = c.date := by
    intro c hc
    rw [hc] at day
    exact Option.map_eq_some_iff.1 day.symm
  refine ⟨?_, filed ▸ h.known, fun c hc => ?_, fun c hc => ?_, fun none => ?_⟩
  · rw [day, filed]
    exact standing
  · obtain ⟨c', hc', same⟩ := same c hc
    rw [filed, ← same]
    exact h.written c' hc'
  · obtain ⟨c', hc', same⟩ := same c hc
    rw [← same]
    exact h.latest c' hc'
  · rw [none] at day
    rw [filed]
    exact h.past (Option.map_eq_none_iff.1 day.symm)

theorem act {a : Act} (later : ∀ r ∈ a.record?, ∀ date ∈ tried, date.le (Date.ofMillis r.2) = true)
    (hu : u.act? a = some u') (compressed : u'.left = []) :
    Enduring s₀ u' (tried ++ datesOf a.record?.toList) := by
  cases change_of_act? hu with
  | @wrote obstacle data received files notices done =>
    exact h.write (later (data, received) rfl) done
  | refused failed => exact h.refuse failed
  | flushed =>
    have none : tried ++ datesOf Act.flush.record?.toList = tried := by simp [Act.record?, datesOf]
    rw [none]
    exact h.congr (map_date_flush u.files) rfl h.standing.flushed
  | @compressed path pending =>
    have none : tried ++ datesOf (Act.compress path).record?.toList = tried := by
      simp [Act.record?, datesOf]
    rw [none]
    exact h.congr rfl rfl (h.standing.compressed pending (compress_of_left compressed))

omit h in
theorem run {acts : List Act} (h : Enduring s₀ u tried)
    (sorted : (tried ++ datesOf (acts.filterMap Act.record?)).Pairwise fun d e => d.le e = true)
    (ran : u.run? acts = some u') (compressed : u'.left = []) :
    Enduring s₀ u' (tried ++ datesOf (acts.filterMap Act.record?)) := by
  induction acts generalizing u tried with
  | nil =>
    cases ran
    simpa [datesOf] using h
  | cons a acts ih =>
    obtain ⟨mid, hu, ran⟩ := Option.bind_eq_some_iff.1 ran
    have dates : tried ++ datesOf ((a :: acts).filterMap Act.record?) =
        tried ++ datesOf a.record?.toList ++ datesOf (acts.filterMap Act.record?) := by
      rw [List.filterMap_cons]
      cases a.record? <;> simp [datesOf]
    have unfailed : mid.left = [] := List.subset_nil.1 (compressed ▸ left_subset_of_run? ran)
    rw [dates] at sorted ⊢
    refine ih (h.act (fun r hr date mem => ?_) hu unfailed) sorted ran
    have first := (List.pairwise_append.1 sorted).1
    refine (List.pairwise_append.1 first).2.2 date mem _ ?_
    simp only [Option.mem_def] at hr
    simp [hr, datesOf]

/-- The day of the open file is the latest date so far, if it was written to. -/
theorem day_iff {f : Date × Bytes} (hf : f ∈ u.filed) :
    u.files.current.map (·.date) = some f.1 ↔ Date.latest? tried = some f.1 := by
  rw [Date.latest?_eq_some_iff]
  constructor
  · intro same
    obtain ⟨day, open?, same⟩ := Option.map_eq_some_iff.1 same
    exact ⟨h.known f hf, same ▸ h.latest day open?⟩
  · rintro ⟨-, last⟩
    cases open? : u.files.current with
    | none =>
      obtain ⟨date, mem, lt⟩ := h.past open? f hf
      exact absurd rfl (Date.ne_of_lt (Date.lt_of_lt_of_le lt (last date mem)))
    | some day =>
      obtain ⟨g, hg, same⟩ := h.written day open?
      have before := last _ (same ▸ h.known g hg)
      exact congrArg some (Date.le_antisymm before (h.latest day open? _ (h.known f hf)))

end Enduring

/-- **Records that are refused, and those after them.**  A record is written if its date is not
after the day of the open file, or if no obstacle is in the way and the file of its day could be
opened in the beginning, whatever was refused before; a record that is not written adds nothing to
any file.

When dates do not decrease and nothing fails in the background, the file of each day that was
written to has in the end what it had before and then the lines of the records of that date that
were written, in order; or its archive has, if files are compressed and a later date was tried.  No
other file is made or changed. -/
theorem endures_of_run {acts : List Act} (closed : s₀.current = none) (idle : s₀.compressing = [])
    (ran : run? { files := s₀ } acts = some u) :
    (∀ obstacle data received,
      let next := u.files.writeDespite obstacle data received
      (next.2.1 = .ok () ↔
        (∃ day ∈ u.files.current, (Date.ofMillis received).le day.date = true) ∨
          obstacle = none ∧ s₀.openable (Date.ofMillis received) = true) ∧
      (next.2.1 ≠ .ok () → next.1.current = none ∧
        ∀ place, next.1.tree.fileAt? place = u.files.flush.tree.fileAt? place)) ∧
    let dates := datesOf (acts.filterMap Act.record?)
    let left := u.close.files.tree
    (dates.Pairwise (fun d e => d.le e = true) → u.close.left = [] →
      (∀ f ∈ u.filed,
        if s₀.compress ∧ Date.latest? dates ≠ some f.1 then
          left.fileOf? (s₀.pathFor f.1) = none ∧
            left.fileOf? (s₀.archiveFor f.1) = some (.archive (grown s₀ f.1 u.filed))
        else
          left.fileOf? (s₀.pathFor f.1) = some (.file (grown s₀ f.1 u.filed)) ∧
            left.fileOf? (s₀.archiveFor f.1) = s₀.tree.fileOf? (s₀.archiveFor f.1)) ∧
      ∀ place,
        (∀ f ∈ u.filed, placeOf (s₀.pathFor f.1) ≠ place ∧
          placeOf (s₀.archiveFor f.1) ≠ place) →
        left.fileAt? place = s₀.tree.fileAt? place) := by
  refine ⟨fun obstacle data received => ⟨?_, fun failed => ?_⟩, fun sorted compressed => ?_⟩
  · have footing : Footing s₀ u.files := (Footing.new closed idle).run ran
    exact (footing.write obstacle data received).2
  · generalize wrote : u.files.writeDespite obstacle data received = next at failed
    obtain ⟨files, result, notices⟩ := next
    cases result with
    | ok => exact absurd rfl failed
    | error e =>
      obtain ⟨closed, tree, room, prepared, same⟩ := writeDespite_error wrote
      exact ⟨by rw [same], fileAt?_of_refused wrote⟩
  · have start : Enduring s₀ { files := s₀ } [] := Enduring.new closed idle
    have unfailed : u.left = [] := List.subset_nil.1 (compressed ▸ left_subset_close u)
    have enduring : Enduring s₀ u (datesOf (acts.filterMap Act.record?)) :=
      start.run (by simpa using sorted) ran unfailed
    obtain ⟨standing, settled, none⟩ := standing_close enduring.standing compressed
    refine ⟨fun f hf => ?_, fun place free => ?_⟩
    · have left := standing.settled none settled hf
      simp only [ne_eq, enduring.day_iff hf] at left
      exact left
    · rw [← landed_of_none none]
      exact standing.others place (fun f hf => (free f hf).1) fun f hf _ => (free f hf).2

/-- Day files with what an earlier use has left of a first day. -/
def worn : DayFiles where
  directory := "out"
  filePrefix := "feed"
  tree := ⟨[(["out", "feed-2024-03-01.log"], .file [48, 10]), (["out"], .directory)]⟩

/-- Three days: the first record of the second day is refused twice, and that of the third once. -/
def troubled : List Act :=
  [.write none [65, 10] 1709251200000, .flush,
    .write (some (.file .isADirectory)) [66, 10] 1709337600000,
    .write (some (.directory .notADirectory)) [66, 10] 1709337600000,
    .write none [66, 10] 1709337600000, .flush,
    .write (some (.file .isADirectory)) [67, 10] 1709337600000,
    .write (some (.directory .notADirectory)) [68, 10] 1709424000000]

/-- The archives have what was written, and the next record of the third day is written. -/
theorem endures_of_run_troubled :
    (datesOf (troubled.filterMap Act.record?)).Pairwise (fun d e => d.le e = true) ∧
      ∃ u, run? { files := worn } troubled = some u ∧ u.close.left = [] ∧ u.refused.length = 3 ∧
        (u.files.writeDespite none [68, 10] 1709424000000).2.1 = .ok () ∧
        u.close.files.tree.fileOf? (worn.archiveFor ⟨2024, 3, 1⟩) =
          some (.archive [48, 10, 65, 10]) ∧
        u.close.files.tree.fileOf? (worn.archiveFor ⟨2024, 3, 2⟩) =
          some (.archive [66, 10, 67, 10]) ∧
        u.close.files.tree.fileAt? ["out", "feed-2024-03-03.log"] = none := by
  have sorted : (datesOf (troubled.filterMap Act.record?)).Pairwise (fun d e => d.le e = true) := by
    decide +kernel
  have whole : (run? { files := worn } troubled).map (fun u =>
      (u.filed, u.refused.length, u.close.left)) = some ([(⟨2024, 3, 1⟩, [65, 10]),
        (⟨2024, 3, 2⟩, [66, 10]), (⟨2024, 3, 2⟩, [67, 10])], 3, []) := by decide +kernel
  have openable : worn.openable (Date.ofMillis 1709424000000) = true := by decide +kernel
  have latest : Date.latest? (datesOf (troubled.filterMap Act.record?)) = some ⟨2024, 3, 3⟩ := by
    decide +kernel
  obtain ⟨u, ran, ended⟩ := Option.map_eq_some_iff.1 whole
  simp only [Prod.mk.injEq] at ended
  obtain ⟨filed, refused, compressed⟩ := ended
  obtain ⟨next, left⟩ := endures_of_run rfl rfl ran
  obtain ⟨days, others⟩ := left sorted compressed
  have first := days (⟨2024, 3, 1⟩, [65, 10]) (by simp [filed])
  have second := days (⟨2024, 3, 2⟩, [66, 10]) (by simp [filed])
  rw [if_pos (by rw [latest]; decide), filed] at first second
  refine ⟨sorted, u, ran, compressed, refused,
    (next none [68, 10] 1709424000000).1.2 (.inr ⟨rfl, openable⟩), first.2.trans ?_,
    second.2.trans ?_, (others _ ?_).trans ?_⟩
  · decide +kernel
  · decide +kernel
  · rw [filed]
    decide +kernel
  · decide +kernel

end FeedCapture.DayFiles.InUse
