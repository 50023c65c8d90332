import FeedCapture.Proofs.Files.Standing
import Mathlib.Data.List.Basic
import Mathlib.Data.List.Induction

/-!
# The files that are left

When day files are used and closed and no operation fails, the file of each day that was written to
has what it had before and then the lines of the records of the day.  With compression the files of
all these days but the last are compressed; no other file is made or changed.

The day of a record is the latest date of the records up to it.

## Main definitions

* `DayFiles.dayOf?`, `DayFiles.byDay` — the days of records
* `DayFiles.InUse.Clean` — no operation has failed

The main statement is `InUse.files_of_run`.
-/

namespace FeedCapture.DayFiles

open FileTree

/-! ## The days of records -/

/-- The dates of records. -/
def datesOf (records : List (Bytes × Int)) : List Date := records.map fun r => Date.ofMillis r.2

/-- The day of a record, which is given by its number: the latest date of the records up to it. -/
def dayOf? (records : List (Bytes × Int)) (i : Nat) : Option Date :=
  Date.latest? (datesOf (records.take (i + 1)))

/-- The records with their days. -/
def byDay (records : List (Bytes × Int)) : List (Date × Bytes) :=
  records.zipIdx.filterMap fun (r, i) => (dayOf? records i).map fun day => (day, r.1)

/-- Without an open day there are no records. -/
theorem eq_nil_of_dayAfter {records : List (Bytes × Int)} (h : dayAfter none records = none) :
    records = [] := by
  rcases List.eq_nil_or_concat records with rfl | ⟨before, last, rfl⟩
  · rfl
  · rw [List.concat_eq_append, dayAfter_append] at h
    cases h

/-- The day that is open is the latest date so far. -/
theorem dayAfter_eq_latest? (records : List (Bytes × Int)) :
    dayAfter none records = Date.latest? (datesOf records) := by
  induction records using List.reverseRecOn with
  | nil => rfl
  | append_singleton records r ih =>
    obtain ⟨data, received⟩ := r
    rw [dayAfter_append, ih]
    symm
    rw [Date.latest?_eq_some_iff]
    cases latest : Date.latest? (datesOf records) with
    | none =>
      rw [eq_nil_of_dayAfter (ih.trans latest)]
      simp [filedUnder, datesOf, Date.le_refl]
    | some day =>
      obtain ⟨mem, most⟩ := Date.latest?_eq_some_iff.1 latest
      rw [datesOf, List.map_append, ← datesOf]
      simp only [filedUnder]
      split
      · next straggler =>
        refine ⟨List.mem_append_left _ mem, fun e he => ?_⟩
        rcases List.mem_append.1 he with he | he
        · exact most e he
        · rw [List.mem_singleton.1 he]
          exact straggler
      · next later =>
        have later := Date.le_of_not_le later
        refine ⟨List.mem_append_right _ (List.mem_singleton.2 rfl), fun e he => ?_⟩
        rcases List.mem_append.1 he with he | he
        · exact Date.le_trans (most e he) later
        · rw [List.mem_singleton.1 he]
          exact Date.le_refl _

/-- A record is filed under its day. -/
theorem byDay_eq_filings (records : List (Bytes × Int)) :
    byDay records = filings none records := by
  induction records using List.reverseRecOn with
  | nil => rfl
  | append_singleton records r ih =>
    obtain ⟨data, received⟩ := r
    have last : dayOf? (records ++ [(data, received)]) records.length =
        some (filedUnder (dayAfter none records) (Date.ofMillis received)) := by
      rw [dayOf?, List.take_of_length_le (by simp), ← dayAfter_eq_latest?, dayAfter_append]
    have before : records.zipIdx.filterMap (fun (r, i) =>
        (dayOf? (records ++ [(data, received)]) i).map fun day => (day, r.1)) = byDay records := by
      refine List.filterMap_congr fun (r, i) mem => ?_
      have short : i < records.length := List.snd_lt_of_mem_zipIdx mem
      simp only [dayOf?, List.take_append_of_le_length short]
    rw [byDay, List.zipIdx_append, List.filterMap_append, before, ih, filings_append]
    simp [last, filings]

/-- A day that records were filed under is not after the open one. -/
theorem le_of_mem_filings {records : List (Bytes × Int)} {day : Date}
    (h : dayAfter none records = some day) :
    ∀ f ∈ filings none records, f.1.le day = true := by
  induction records using List.reverseRecOn generalizing day with
  | nil => cases h
  | append_singleton records r ih =>
    obtain ⟨data, received⟩ := r
    rw [dayAfter_append] at h
    cases h
    intro f hf
    rw [filings_append] at hf
    rcases List.mem_append.1 hf with hf | hf
    · cases before : dayAfter none records with
      | none =>
        rw [eq_nil_of_dayAfter before] at hf
        cases hf
      | some c =>
        have le := ih before f hf
        simp only [filedUnder]
        split
        · exact le
        · next later => exact Date.le_trans le (Date.le_of_not_le later)
    · rw [filings, filings, List.mem_singleton] at hf
      rw [hf]
      exact Date.le_refl _

/-! ## Runs -/

variable {s₀ : DayFiles} {u u' : InUse}

/-- The record that an act writes. -/
def Act.record? : Act → Option (Bytes × Int)
  | .write _ data received => some (data, received)
  | _ => none

namespace InUse

/-- No operation has failed. -/
def Clean (u : InUse) : Prop := u.refused = [] ∧ u.left = []

/-- What an act does. -/
inductive Change (u : InUse) : Act → InUse → Prop
  | wrote {obstacle : Option Obstacle} {data : Bytes} {received : Int} {files : DayFiles}
      {notices : List Notice}
      (done : u.files.writeDespite obstacle data received = (files, .ok (), notices)) :
      Change u (.write obstacle data received)
        { u with files, written := u.written ++ [(data, received)] }
  | refused {obstacle : Option Obstacle} {data : Bytes} {received : Int} {files : DayFiles}
      {e : Failure} {notices : List Notice}
      (failed : u.files.writeDespite obstacle data received = (files, .error e, notices)) :
      Change u (.write obstacle data received) { u with files, refused := u.refused ++ [e] }
  | flushed : Change u .flush { u with files := u.files.flush }
  | compressed {path : String} (pending : path ∈ u.files.compressing) :
      Change u (.compress path) (u.compressFile path)

theorem change_of_act? {a : Act} (hu : u.act? a = some u') : Change u a u' := by
  cases a with
  | write obstacle data received =>
    simp only [act?] at hu
    split at hu
    · next done =>
      cases hu
      exact .wrote done
    · next failed =>
      cases hu
      exact .refused failed
  | flush =>
    cases hu
    exact .flushed
  | compress path =>
    simp only [act?] at hu
    split at hu
    · next pending =>
      cases hu
      exact .compressed pending
    · cases hu

theorem left_subset_compressFile (u : InUse) (path : String) :
    u.left ⊆ (u.compressFile path).left := by
  unfold compressFile
  dsimp only
  split
  · exact List.Subset.refl _
  · exact List.subset_append_left _ _

/-- A file is compressed unless it is known that it could not be. -/
theorem compress_of_left {path : String} (compressed : (u.compressFile path).left = []) :
    (u.files.tree.compress path none).2 = true := by
  unfold compressFile at compressed
  dsimp only at compressed
  split at compressed
  · next ok => exact ok
  · simp at compressed

theorem Clean.of_compressFile {path : String} (clean : (u.compressFile path).Clean) :
    u.Clean ∧ (u.files.tree.compress path none).2 = true :=
  ⟨⟨clean.1, List.subset_nil.1 (clean.2 ▸ left_subset_compressFile u path)⟩,
    compress_of_left clean.2⟩

/-- What failed stays failed. -/
theorem Clean.of_act? {a : Act} (clean : u'.Clean) (hu : u.act? a = some u') : u.Clean := by
  cases change_of_act? hu with
  | wrote => exact clean
  | refused => simp [Clean] at clean
  | flushed => exact clean
  | compressed => exact clean.of_compressFile.1

theorem Clean.of_run? {acts : List Act} (clean : u'.Clean) (ran : u.run? acts = some u') :
    u.Clean := by
  induction acts generalizing u with
  | nil => cases ran; exact clean
  | cons a acts ih =>
    obtain ⟨mid, hu, ran⟩ := Option.bind_eq_some_iff.1 ran
    exact (ih ran).of_act? hu

theorem Clean.of_foldl {paths : List String} (clean : (paths.foldl compressFile u).Clean) :
    u.Clean := by
  induction paths generalizing u with
  | nil => exact clean
  | cons path paths ih => exact (ih clean).of_compressFile.1

/-- What holds while day files are used and no operation fails. -/
structure Keeping (s₀ : DayFiles) (u : InUse) : Prop where
  day : u.files.current.map (·.date) = dayAfter none u.written
  standing : Standing s₀ u.files (u.files.current.map (·.date)) (filings none u.written)

namespace Keeping

/-- A record is written. -/
theorem write {obstacle : Option Obstacle} {data : Bytes} {received : Int} {files : DayFiles}
    {notices : List Notice} (h : Keeping s₀ u)
    (done : u.files.writeDespite obstacle data received = (files, .ok (), notices)) :
    Keeping s₀ { u with files, written := u.written ++ [(data, received)] } := by
  have known : ∀ day ∈ u.files.current, ∃ f ∈ filings none u.written, f.1 = day.date := by
    intro day open?
    exact exists_mem_filings (h.day.symm.trans (by rw [open?]; rfl))
  have fresh : (∀ day ∈ u.files.current, day.date.lt (Date.ofMillis received) = true) →
      ∀ f ∈ filings none u.written, f.1 ≠ Date.ofMillis received := by
    intro later f hf same
    have day := h.day
    cases open? : u.files.current with
    | none =>
      rw [open?] at day
      rw [eq_nil_of_dayAfter day.symm] at hf
      cases hf
    | some c =>
      rw [open?] at day
      have le := le_of_mem_filings day.symm f hf
      rw [same, Date.le, later c open?] at le
      cases le
  obtain ⟨day, standing⟩ := h.standing.write known fresh done
  rw [h.day] at day standing
  refine ⟨?_, ?_⟩
  · rw [day, dayAfter_append]
  · rw [filings_append]
    exact standing

theorem act {a : Act} (h : Keeping s₀ u) (hu : u.act? a = some u') (clean : u'.Clean) :
    Keeping s₀ u' ∧ u'.written = u.written ++ a.record?.toList := by
  cases change_of_act? hu with
  | wrote done => exact ⟨h.write done, rfl⟩
  | refused => simp [Clean] at clean
  | flushed =>
    refine ⟨⟨(map_date_flush _).trans h.day, ?_⟩, by simp [Act.record?]⟩
    rw [map_date_flush]
    exact h.standing.flushed
  | compressed pending =>
    exact ⟨⟨h.day, h.standing.compressed pending clean.of_compressFile.2⟩, by
      simp [Act.record?, compressFile]⟩

theorem run {acts : List Act} (h : Keeping s₀ u) (ran : u.run? acts = some u') (clean : u'.Clean) :
    Keeping s₀ u' ∧ u'.written = u.written ++ acts.filterMap Act.record? := by
  induction acts generalizing u with
  | nil =>
    cases ran
    exact ⟨h, by simp⟩
  | cons a acts ih =>
    obtain ⟨mid, hu, ran⟩ := Option.bind_eq_some_iff.1 ran
    obtain ⟨kept, written⟩ := h.act hu (clean.of_run? ran)
    obtain ⟨kept, more⟩ := ih kept ran
    refine ⟨kept, ?_⟩
    rw [more, written, List.append_assoc, List.filterMap_cons]
    cases a.record? <;> rfl

end Keeping

/-- What could not be compressed stays known. -/
theorem left_subset_of_act? {a : Act} (hu : u.act? a = some u') : u.left ⊆ u'.left := by
  cases change_of_act? hu with
  | compressed => exact left_subset_compressFile u _
  | _ => exact List.Subset.refl _

theorem left_subset_of_run? {acts : List Act} (ran : u.run? acts = some u') :
    u.left ⊆ u'.left :=
  preserved_of_run? (fun before ha => List.Subset.trans before (left_subset_of_act? ha))
    (List.Subset.refl _) ran

theorem left_subset_foldl (u : InUse) (paths : List String) :
    u.left ⊆ (paths.foldl compressFile u).left := by
  induction paths generalizing u with
  | nil => exact List.Subset.refl _
  | cons path paths ih => exact List.Subset.trans (left_subset_compressFile u path) (ih _)

/-- All files that were handed over are compressed. -/
theorem standing_foldl {stays : Option Date} {filed : List (Date × Bytes)} {paths : List String}
    (h : Standing s₀ u.files stays filed) (pending : u.files.compressing = paths)
    (compressed : (paths.foldl compressFile u).left = []) :
    Standing s₀ (paths.foldl compressFile u).files stays filed ∧
      (paths.foldl compressFile u).files.compressing = [] ∧
      (paths.foldl compressFile u).files.current = u.files.current := by
  induction paths generalizing u with
  | nil => exact ⟨h, pending, rfl⟩
  | cons path paths ih =>
    have mem : path ∈ u.files.compressing := by simp [pending]
    have first : (u.compressFile path).left = [] :=
      List.subset_nil.1 (compressed ▸ left_subset_foldl (u.compressFile path) paths)
    refine ih (h.compressed mem (compress_of_left first)) ?_ compressed
    simp [compressFile, DayFiles.compressFile, pending]

/-- What failed before the files were closed stays known. -/
theorem left_subset_close (u : InUse) : u.left ⊆ u.close.left :=
  left_subset_foldl { u with files := u.files.shut } _

/-- Once day files are closed, no file is open and none waits any more. -/
theorem standing_close {stays : Option Date} {filed : List (Date × Bytes)}
    (h : Standing s₀ u.files stays filed) (compressed : u.close.left = []) :
    Standing s₀ u.close.files stays filed ∧
      u.close.files.compressing = [] ∧ u.close.files.current = none :=
  standing_foldl (u := { u with files := u.files.shut }) h.closed (compressing_flush u.files)
    compressed

/-- Once day files are used and closed, no file waits any more but that of the last day. -/
theorem standing_of_run {acts : List Act} (closed : s₀.current = none)
    (idle : s₀.compressing = []) (ran : run? { files := s₀ } acts = some u)
    (clean : u.close.Clean) :
    Standing s₀ u.close.files (Date.latest? (datesOf (acts.filterMap Act.record?)))
        (byDay (acts.filterMap Act.record?)) ∧
      u.close.files.compressing = [] ∧ u.close.files.current = none := by
  have unclosed : u.Clean := Clean.of_foldl (u := { u with files := u.files.shut }) clean
  have start : Keeping s₀ { files := s₀ } := by
    refine ⟨by rw [closed]; rfl, ?_⟩
    rw [closed]
    exact Standing.new closed idle
  obtain ⟨kept, written⟩ := start.run ran unclosed
  have written : u.written = acts.filterMap Act.record? := written
  have standing := kept.standing
  rw [kept.day, written, dayAfter_eq_latest?, ← byDay_eq_filings] at standing
  exact standing_close standing clean.2

/-- The day files that are left when a run is over: of each day that was written to, the file has
what it had before and then the lines of the day's records, and it is compressed if files are
compressed and the day is not the last; no other file is made or changed. -/
theorem files_of_run {acts : List Act} (closed : s₀.current = none) (idle : s₀.compressing = [])
    (ran : run? { files := s₀ } acts = some u) (clean : u.close.Clean)
    (fresh : ∀ f ∈ byDay (acts.filterMap Act.record?), s₀.tree.fileOf? (s₀.archiveFor f.1) = none) :
    let records := acts.filterMap Act.record?
    let left := u.close.files.tree
    (∀ f ∈ byDay records,
      if s₀.compress ∧ Date.latest? (datesOf records) ≠ some f.1 then
        left.fileOf? (s₀.pathFor f.1) = none ∧
          left.fileOf? (s₀.archiveFor f.1) = some (.archive (grown s₀ f.1 (byDay records)))
      else
        left.fileOf? (s₀.pathFor f.1) = some (.file (grown s₀ f.1 (byDay records))) ∧
          left.fileOf? (s₀.archiveFor f.1) = none) ∧
    ∀ place,
      (∀ f ∈ byDay records, placeOf (s₀.pathFor f.1) ≠ place ∧
        placeOf (s₀.archiveFor f.1) ≠ place) →
      left.fileAt? place = s₀.tree.fileAt? place := by
  obtain ⟨standing, settled, none⟩ := standing_of_run closed idle ran clean
  intro records left
  have landed : left = u.close.files.landed := (landed_of_none none).symm
  rw [landed]
  refine ⟨fun f hf => ?_, fun place free => standing.others place (fun f hf => (free f hf).1)
    fun f hf _ => (free f hf).2⟩
  split
  · next past =>
    refine standing.moved f hf fun wait => ?_
    rw [settled] at wait
    rcases wait with plain | last | pending
    · rw [plain] at past
      cases past.1
    · exact past.2 last
    · cases pending
  · next last =>
    have wait : Waits s₀ u.close.files.compressing (Date.latest? (datesOf records)) f.1 := by
      cases compress : s₀.compress with
      | false => exact .inl compress
      | true => exact .inr (.inl (by_contra fun past => last ⟨compress, past⟩))
    exact ⟨standing.plain f hf wait, (standing.archive_eq wait).trans (fresh f hf)⟩

/-- Day files that are used a second time, beside a file of another kind. -/
def reopened : DayFiles where
  directory := "out"
  filePrefix := "feed"
  tree := ⟨[(["out", "feed-2024-03-01.log"], .file [48, 10]), (["out", "notes"], .file [1]),
    (["out"], .directory)]⟩

/-- Records of two days, and then one of the first day that comes late. -/
def reopenedActs : List Act :=
  [.write none [65, 10] 1709251200000, .flush, .write none [66] 1709337600000,
    .compress "out/feed-2024-03-01.log", .write none [67, 13, 10] 1709337599999]

/-- The first day is compressed with what it had before, and the late record is in the second. -/
theorem files_of_run_reopened :
    ∃ u, run? { files := reopened } reopenedActs = some u ∧ u.close.Clean ∧
      (∀ f ∈ byDay (reopenedActs.filterMap Act.record?),
        reopened.tree.fileOf? (reopened.archiveFor f.1) = none) ∧
      u.close.files.tree.fileOf? (reopened.pathFor ⟨2024, 3, 1⟩) = none ∧
      u.close.files.tree.fileOf? (reopened.archiveFor ⟨2024, 3, 1⟩) =
        some (.archive [48, 10, 65, 10]) ∧
      u.close.files.tree.fileOf? (reopened.pathFor ⟨2024, 3, 2⟩) =
        some (.file [66, 10, 67, 10]) ∧
      u.close.files.tree.fileAt? ["out", "notes"] = some (.file [1]) := by
  have outcome : (run? { files := reopened } reopenedActs).map (fun u =>
      (u.close.refused, u.close.left)) = some ([], []) := by decide +kernel
  obtain ⟨u, ran, clean⟩ := Option.map_eq_some_iff.1 outcome
  have clean : u.close.Clean := by simpa [Clean] using clean
  have days : byDay (reopenedActs.filterMap Act.record?) =
      [(⟨2024, 3, 1⟩, [65, 10]), (⟨2024, 3, 2⟩, [66]), (⟨2024, 3, 2⟩, [67, 13, 10])] := by
    decide +kernel
  have fresh : ∀ f ∈ byDay (reopenedActs.filterMap Act.record?),
      reopened.tree.fileOf? (reopened.archiveFor f.1) = none := by
    decide +kernel
  obtain ⟨written, others⟩ := files_of_run rfl rfl ran clean fresh
  have last : Date.latest? (datesOf (reopenedActs.filterMap Act.record?)) = some ⟨2024, 3, 2⟩ := by
    decide +kernel
  have first := written (⟨2024, 3, 1⟩, [65, 10]) (by simp [days])
  have second := written (⟨2024, 3, 2⟩, [66]) (by simp [days])
  rw [if_pos (by rw [last]; decide)] at first
  rw [if_neg (by rw [last]; decide)] at second
  refine ⟨u, ran, clean, fresh, first.1, first.2.trans ?_, second.1.trans ?_, ?_⟩
  · decide +kernel
  · decide +kernel
  · exact (others ["out", "notes"] (by rw [days]; decide +kernel)).trans (by decide +kernel)

end InUse

end FeedCapture.DayFiles
