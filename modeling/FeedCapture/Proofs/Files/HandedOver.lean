import FeedCapture.Proofs.Files.Refusals

/-!
# Files that were handed over

A file that was handed over to be compressed is not opened or written again, as long as a record
that finds no file open is of a later day than all whose files were open before.  Its content stays
as it is, and gets into the archive of the day.

A record finds no file open only when it is the first one, or when the one before it was refused.

## Main definitions

* `DayFiles.Outcome` — what becomes of the files by writing a record
* `DayFiles.Ahead`, `DayFiles.Behind` — the open file is of the latest day so far; the file of a day
  was open and is not open any more
* `DayFiles.InUse.Forward`, `DayFiles.InUse.ForwardRun` — the condition on records that find no file
  open
* `DayFiles.InUse.LeftAlone`, `DayFiles.InUse.Fate` — an act does nothing to a file, and what
  becomes of a file that was handed over

The main statement is `InUse.leftAlone_of_run`.
-/

namespace FeedCapture.DayFiles

open FileTree

variable {s₀ s s' closed : DayFiles} {date : Date} {obstacle : Option Obstacle} {data : Bytes}
  {received : Int} {days : List Date}

/-! ## What becomes of the files by writing a record -/

/-- What becomes of the files by writing a record of a date: it joins those of the open file, or a
file is opened for it, or it is refused. -/
inductive Outcome (s : DayFiles) (date : Date) (s' : DayFiles) : Prop
  | joined {c day : OpenDay} (open? : s.current = some c) (now : s'.current = some day)
      (same : day.date = c.date ∧ day.path = c.path ∧ day.place = c.place)
      (pending : s'.compressing = s.compressing)
      (others : ∀ place, place ≠ c.place → s'.tree.fileAt? place = s.tree.fileAt? place)
  | opened {closed : DayFiles} {day : OpenDay} (room : MakesRoom s date closed)
      (now : s'.current = some day) (own : day.date = date)
      (placed : day.path = s.pathFor day.date ∧ placeOf day.path = day.place)
      (pending : s'.compressing = closed.compressing)
      (others : ∀ place, place ≠ day.place → s'.tree.fileAt? place = closed.tree.fileAt? place)
  | refused {closed : DayFiles} (room : MakesRoom s date closed) (now : s'.current = none)
      (pending : s'.compressing = closed.compressing)
      (others : ∀ place, s'.tree.fileAt? place = closed.tree.fileAt? place)

/-- A record that is written joins those of the open file, or a file is opened for it. -/
theorem outcome_of_ok {notices : List Notice}
    (plain : ∀ day ∈ s.current, isAnchor day.place = false)
    (h : s.writeDespite obstacle data received = (s', .ok (), notices)) :
    s'.directory = s.directory ∧ s'.filePrefix = s.filePrefix ∧
      Outcome s (Date.ofMillis received) s' := by
  obtain ⟨s₁, day, found, rfl⟩ := writeDespite_ok h
  rcases dayFor_room found with ⟨open?, -, rfl⟩ | ⟨closed, tree, room, rfl, own, opened⟩
  · have wrote := wrote_putLine s₁.tree data (plain day open?)
    exact ⟨rfl, rfl, .joined open? rfl ⟨wrote.date, wrote.path, wrote.place⟩ rfl wrote.others⟩
  · have path : day.path = s.pathFor day.date := opened.path.trans (pathFor_congr room.config _)
    have wrote := wrote_putLine tree data
      (s.isAnchor_of_placeOf false (path ▸ opened.place : placeOf (s.pathFor day.date) = _))
    refine ⟨room.config.1, room.config.2, .opened room rfl (wrote.date.trans own) ⟨?_, ?_⟩ rfl
      fun place hne => ?_⟩
    · rw [wrote.path, wrote.date, path]
    · rw [wrote.path, wrote.place, opened.place]
    · have hne : place ≠ day.place := wrote.place ▸ hne
      exact (wrote.others place hne).trans (opened.others place hne)

/-- A record that is refused leaves no file open. -/
theorem outcome_of_error {e : Failure} {notices : List Notice}
    (h : s.writeDespite obstacle data received = (s', .error e, notices)) :
    s'.directory = s.directory ∧ s'.filePrefix = s.filePrefix ∧
      Outcome s (Date.ofMillis received) s' := by
  obtain ⟨closed, tree, room, prepared, rfl⟩ := writeDespite_error h
  exact ⟨room.config.1, room.config.2, .refused room rfl rfl prepared.fileAt?⟩

namespace MakesRoom

/-- What waits to be compressed once room was made waited before, or it is the file that was
open. -/
theorem mem_compressing (room : MakesRoom s date closed) {path : String}
    (mem : path ∈ closed.compressing) :
    path ∈ s.compressing ∨ ∃ c, s.current = some c ∧ c.date.lt date = true ∧ path = c.path := by
  cases room with
  | idle => exact .inl mem
  | @rotated c open? before =>
    unfold rotate at mem
    dsimp only at mem
    split at mem
    · rcases List.mem_append.1 mem with mem | mem
      · exact .inl mem
      · exact .inr ⟨c, open?, before, List.mem_singleton.1 mem⟩
    · exact .inl mem

theorem subset_compressing (room : MakesRoom s date closed) :
    s.compressing ⊆ closed.compressing := by
  cases room with
  | idle => exact List.Subset.refl _
  | rotated =>
    unfold rotate
    dsimp only
    split
    · exact List.subset_append_left _ _
    · exact List.Subset.refl _

end MakesRoom

/-! ## Days that are behind -/

/-- The open file is of the latest day whose file was open so far; `days` are these days. -/
structure Ahead (s₀ s : DayFiles) (days : List Date) : Prop where
  directory : s.directory = s₀.directory
  filePrefix : s.filePrefix = s₀.filePrefix
  placed : ∀ day ∈ s.current, day.path = s₀.pathFor day.date ∧ placeOf day.path = day.place
  known : ∀ day ∈ s.current, day.date ∈ days
  latest : ∀ day ∈ s.current, ∀ date ∈ days, date.le day.date = true
  /-- What is still to be compressed is the file of a day that is not open. -/
  pending : ∀ path ∈ s.compressing,
    ∃ date ∈ days, path = s₀.pathFor date ∧ ∀ day ∈ s.current, day.date ≠ date
  once : s.compressing.Nodup

/-- The file of a day was open and is not open any more. -/
def Behind (s : DayFiles) (days : List Date) (date : Date) : Prop :=
  date ∈ days ∧ ∀ day ∈ s.current, day.date ≠ date

/-- The days whose files were open, with the one that is open now. -/
def opened (s : DayFiles) (days : List Date) : List Date :=
  days ++ (s.current.map (·.date)).toList

theorem mem_opened_iff {d : Date} :
    d ∈ s.opened days ↔ d ∈ days ∨ ∃ day ∈ s.current, day.date = d := by
  cases open? : s.current <;> simp [opened, open?, eq_comm]

namespace Ahead

/-- Before the first record. -/
theorem new (closed : s.current = none) (idle : s.compressing = []) : Ahead s s [] where
  directory := rfl
  filePrefix := rfl
  placed day hd := by rw [closed] at hd; cases hd
  known day hd := by rw [closed] at hd; cases hd
  latest day hd := by rw [closed] at hd; cases hd
  pending path hp := by rw [idle] at hp; cases hp
  once := by rw [idle]; exact List.nodup_nil

variable (h : Ahead s₀ s days)

include h

theorem pathFor_eq (date : Date) : s.pathFor date = s₀.pathFor date :=
  pathFor_congr ⟨h.directory, h.filePrefix⟩ date

theorem isAnchor_current : ∀ day ∈ s.current, isAnchor day.place = false := fun day hd =>
  s₀.isAnchor_of_placeOf false ((h.placed day hd).1 ▸ (h.placed day hd).2)

theorem behind_of_pending {path : String} (mem : path ∈ s.compressing) :
    ∃ date, s.Behind days date ∧ path = s₀.pathFor date := by
  obtain ⟨date, known, rfl, shut⟩ := h.pending path mem
  exact ⟨date, ⟨known, shut⟩, rfl⟩

/-- The file of a day that is behind is not open. -/
theorem shut (behind : s.Behind days date) : ∀ day ∈ s.current, day.path ≠ s₀.pathFor date := by
  intro day hd same
  rw [(h.placed day hd).1] at same
  exact behind.2 day hd (s₀.pathFor_injective same)

/-- The open file is neither where the file of a day is that is behind nor where its archive is. -/
theorem place_ne (behind : s.Behind days date) (archived : Bool) {place : Place}
    (found : placeOf (s₀.filePath archived date) = place) :
    ∀ day ∈ s.current, place ≠ day.place := by
  rintro day hd rfl
  obtain ⟨path, placed⟩ := h.placed day hd
  rw [path] at placed
  have own : placeOf (s₀.filePath false day.date) = day.place := placed
  exact placeOf_ne false archived own (.inr (behind.2 day hd).symm) found

/-! ### What changes -/

/-- As long as no other file is opened and none is handed over, nothing changes. -/
theorem keep (config : s'.directory = s.directory ∧ s'.filePrefix = s.filePrefix)
    (current : ∀ day ∈ s'.current, ∃ c ∈ s.current,
      day.date = c.date ∧ day.path = c.path ∧ day.place = c.place)
    (pending : s'.compressing.Sublist s.compressing) : Ahead s₀ s' (s'.opened days) := by
  have known : ∀ d ∈ s'.opened days, d ∈ days := by
    intro d mem
    rcases mem_opened_iff.1 mem with mem | ⟨day, hd, rfl⟩
    · exact mem
    · obtain ⟨c, hc, same, -⟩ := current day hd
      exact same ▸ h.known c hc
  refine ⟨config.1.trans h.directory, config.2.trans h.filePrefix, fun day hd => ?_,
    fun day hd => mem_opened_iff.2 (.inr ⟨day, hd, rfl⟩), fun day hd d mem => ?_,
    fun path mem => ?_, h.once.sublist pending⟩
  · obtain ⟨c, hc, sameDate, samePath, samePlace⟩ := current day hd
    rw [sameDate, samePath, samePlace]
    exact h.placed c hc
  · obtain ⟨c, hc, sameDate, -⟩ := current day hd
    rw [sameDate]
    exact h.latest c hc d (known d mem)
  · obtain ⟨d, before, rfl, shut⟩ := h.pending path (pending.subset mem)
    refine ⟨d, mem_opened_iff.2 (.inl before), rfl, fun day hd => ?_⟩
    obtain ⟨c, hc, sameDate, -⟩ := current day hd
    rw [sameDate]
    exact shut c hc

omit h in
theorem behind_of_keep (current : ∀ day ∈ s'.current, ∃ c ∈ s.current, day.date = c.date)
    (behind : s.Behind days date) : s'.Behind (s'.opened days) date := by
  refine ⟨mem_opened_iff.2 (.inl behind.1), fun day hd => ?_⟩
  obtain ⟨c, hc, same⟩ := current day hd
  rw [same]
  exact behind.2 c hc

/-- Flushing changes neither the file of a day that is behind nor its archive. -/
theorem fileAt?_flush (behind : s.Behind days date) (archived : Bool) {place : Place}
    (found : placeOf (s₀.filePath archived date) = place) :
    s.flush.tree.fileAt? place = s.tree.fileAt? place := by
  cases open? : s.current with
  | none => simp [DayFiles.flush, open?]
  | some c =>
    have flushed : s.flush.tree = (c.flush s.tree).1 := by simp [DayFiles.flush, open?]
    rw [flushed]
    exact fileAt?_flush_of_ne c s.tree (h.place_ne behind archived found c open?)

/-! ### Opening a file -/

/-- A day that a file is opened for is after all whose files were open. -/
theorem lt_of_room (room : MakesRoom s date closed)
    (forward : s.current = none → ∀ d ∈ days, d.lt date = true) {d : Date} (mem : d ∈ days) :
    d.lt date = true := by
  cases room with
  | idle none => exact forward none d mem
  | rotated open? before => exact Date.lt_of_le_of_lt (h.latest _ open? d mem) before

/-- What waits to be compressed once room was made is of a day whose file was open. -/
theorem days_of_room (room : MakesRoom s date closed) {path : String}
    (mem : path ∈ closed.compressing) : ∃ d ∈ days, path = s₀.pathFor d := by
  rcases room.mem_compressing mem with mem | ⟨c, open?, -, rfl⟩
  · obtain ⟨d, known, path, -⟩ := h.pending path mem
    exact ⟨d, known, path⟩
  · exact ⟨c.date, h.known c open?, (h.placed c open?).1⟩

/-- The day that is closed is handed over for the first time. -/
theorem once_of_room (room : MakesRoom s date closed) : closed.compressing.Nodup := by
  cases room with
  | idle => exact h.once
  | @rotated c open? _ =>
    have fresh : c.path ∉ s.compressing := by
      intro mem
      obtain ⟨d, behind, path⟩ := h.behind_of_pending mem
      exact h.shut behind c open? path
    unfold rotate
    dsimp only
    split
    · refine List.nodup_append.2 ⟨h.once, by simp, fun path mem other last => ?_⟩
      rw [List.mem_singleton.1 last]
      rintro rfl
      exact fresh mem
    · exact h.once

/-- A record that is written to the open file or to that of a later day leaves the days that are
behind where they are. -/
theorem write (config : s'.directory = s.directory ∧ s'.filePrefix = s.filePrefix)
    (forward : s.current = none → ∀ d ∈ days, d.lt date = true) (outcome : Outcome s date s') :
    Ahead s₀ s' (s'.opened days) ∧ ∀ d, s.Behind days d → s'.Behind (s'.opened days) d := by
  have directory := config.1.trans h.directory
  have filePrefix := config.2.trans h.filePrefix
  cases outcome with
  | @joined c day open? now same pending others =>
    have current : ∀ d ∈ s'.current, ∃ c ∈ s.current,
        d.date = c.date ∧ d.path = c.path ∧ d.place = c.place := by
      intro d hd
      rw [now] at hd
      cases hd
      exact ⟨c, open?, same⟩
    exact ⟨h.keep config current (pending ▸ List.Sublist.refl _),
      fun d => behind_of_keep fun day hd => (current day hd).imp fun c hc => ⟨hc.1, hc.2.1⟩⟩
  | @opened closed day room now own placed pending others =>
    have only : ∀ d ∈ s'.current, d = day := by
      intro d hd
      rw [now] at hd
      exact (Option.some.inj hd).symm
    have later : ∀ d ∈ days, d.lt day.date = true := fun d mem =>
      own ▸ h.lt_of_room room forward mem
    refine ⟨⟨directory, filePrefix, fun d hd => ?_,
      fun d hd => mem_opened_iff.2 (.inr ⟨d, hd, rfl⟩), fun c hc d mem => ?_, fun path mem => ?_,
      pending ▸ h.once_of_room room⟩, fun d behind => ?_⟩
    · rw [only d hd, ← h.pathFor_eq]
      exact placed
    · rw [only c hc]
      rcases mem_opened_iff.1 mem with mem | ⟨c', hc', rfl⟩
      · exact Date.le_of_lt (later d mem)
      · rw [only c' hc']
        exact Date.le_refl _
    · obtain ⟨d, known, path⟩ := h.days_of_room room (pending ▸ mem)
      refine ⟨d, mem_opened_iff.2 (.inl known), path, fun c hc => ?_⟩
      rw [only c hc]
      exact (Date.ne_of_lt (later d known)).symm
    · refine ⟨mem_opened_iff.2 (.inl behind.1), fun c hc => ?_⟩
      rw [only c hc]
      exact (Date.ne_of_lt (later d behind.1)).symm
  | @refused closed room now pending others =>
    have none : ∀ d : OpenDay, d ∉ s'.current := by simp [now]
    refine ⟨⟨directory, filePrefix, fun d hd => absurd hd (none d), fun d hd => absurd hd (none d),
      fun d hd => absurd hd (none d), fun path mem => ?_, pending ▸ h.once_of_room room⟩,
      fun d behind => ⟨mem_opened_iff.2 (.inl behind.1), fun d hd => absurd hd (none d)⟩⟩
    obtain ⟨d, known, path⟩ := h.days_of_room room (pending ▸ mem)
    exact ⟨d, mem_opened_iff.2 (.inl known), path, fun d hd => absurd hd (none d)⟩

/-- What a record of a later day does to the open file does nothing to those behind. -/
theorem fileAt?_of_room (room : MakesRoom s date closed) {d : Date} (behind : s.Behind days d)
    (archived : Bool) {place : Place} (found : placeOf (s₀.filePath archived d) = place) :
    closed.tree.fileAt? place = s.tree.fileAt? place := by
  rw [room.tree]
  exact h.fileAt?_flush behind archived found

/-- Writing a record changes neither the file of a day that is behind nor its archive. -/
theorem fileAt?_of_outcome (h' : Ahead s₀ s' (s'.opened days)) (outcome : Outcome s date s')
    {d : Date} (behind : s.Behind days d) (still : s'.Behind (s'.opened days) d)
    (archived : Bool) {place : Place} (found : placeOf (s₀.filePath archived d) = place) :
    s'.tree.fileAt? place = s.tree.fileAt? place := by
  cases outcome with
  | @joined c day open? _ _ _ others =>
    exact others place (h.place_ne behind archived found c open?)
  | @opened closed day room now _ _ _ others =>
    have ne := h'.place_ne still archived found day now
    exact (others place ne).trans (h.fileAt?_of_room room behind archived found)
  | refused room _ _ others =>
    exact (others place).trans (h.fileAt?_of_room room behind archived found)

/-- Writing a record does not hand over the file of a day that is behind. -/
theorem mem_compressing_of_outcome (outcome : Outcome s date s') {d : Date}
    (behind : s.Behind days d) :
    s₀.pathFor d ∈ s'.compressing ↔ s₀.pathFor d ∈ s.compressing := by
  have room : ∀ closed, MakesRoom s date closed →
      (s₀.pathFor d ∈ closed.compressing ↔ s₀.pathFor d ∈ s.compressing) := by
    refine fun closed room => ⟨fun pending => ?_, fun pending => room.subset_compressing pending⟩
    rcases room.mem_compressing pending with pending | ⟨c, open?, -, path⟩
    · exact pending
    · exact absurd path.symm (h.shut behind c open?)
  cases outcome with
  | joined _ _ _ pending => rw [pending]
  | opened made _ _ _ pending | refused made _ pending =>
    rw [pending]
    exact room _ made

end Ahead

namespace InUse

variable {u v w : InUse} {a : Act} {first rest : List Act} {path : String}

/-! ## Acts -/

/-- What an act reports. -/
def notices (u : InUse) : Act → List Notice
  | .write obstacle data received => (u.files.writeDespite obstacle data received).2.2
  | _ => []

/-- An act does nothing to a file: the file is not opened, and it is not open afterwards; and unless
it is compressed, it is as it was, its archive too, and it waits to be compressed if it did so. -/
structure LeftAlone (v : InUse) (a : Act) (w : InUse) (path : String) : Prop where
  unopened : .opened path ∉ v.notices a
  shut : ∀ day ∈ w.files.current, day.path ≠ path
  file : a ≠ .compress path → w.files.tree.fileOf? path = v.files.tree.fileOf? path
  archive : a ≠ .compress path →
    w.files.tree.fileOf? (path ++ ".lz4") = v.files.tree.fileOf? (path ++ ".lz4")
  pending : a ≠ .compress path → (path ∈ w.files.compressing ↔ path ∈ v.files.compressing)

/-- What becomes of a file that was handed over: it waits as it is until it is compressed, and then
its content is in the archive and it is gone, or it is left as it is. -/
inductive Fate (u v : InUse) (path : String) : Prop
  | waiting (pending : path ∈ v.files.compressing)
      (same : v.files.tree.fileOf? path = u.files.tree.fileOf? path)
  | archived (settled : path ∉ v.files.compressing) (gone : v.files.tree.fileOf? path = none)
      (kept : v.files.tree.fileOf? (path ++ ".lz4") =
        some (.archive (u.files.tree.contentOf path)))
  | left (settled : path ∉ v.files.compressing) (failed : path ∈ v.left)
      (same : v.files.tree.fileOf? path = u.files.tree.fileOf? path)

/-- A record that finds no file open is of a later day than all whose files were open. -/
def Forward (u : InUse) (days : List Date) : Act → Prop
  | .write _ _ received =>
    u.files.current = none → ∀ date ∈ days, date.lt (Date.ofMillis received) = true
  | _ => True

instance (u : InUse) (days : List Date) : (a : Act) → Decidable (u.Forward days a)
  | .write _ _ received => inferInstanceAs (Decidable (u.files.current = none →
      ∀ date ∈ days, date.lt (Date.ofMillis received) = true))
  | .flush => inferInstanceAs (Decidable True)
  | .compress _ => inferInstanceAs (Decidable True)

/-- Throughout acts in order, a record that finds no file open is of a later day than all whose
files were open by then.  A record finds no file open when it is the first, or the one before it was
refused. -/
def ForwardRun (u : InUse) (days : List Date) : List Act → Prop
  | [] => True
  | a :: rest => u.Forward days a ∧
      match u.act? a with
      | none => True
      | some v => v.ForwardRun (v.files.opened days) rest

instance decidableForwardRun (u : InUse) (days : List Date) :
    (acts : List Act) → Decidable (u.ForwardRun days acts)
  | [] => inferInstanceAs (Decidable True)
  | a :: rest =>
    have : Decidable (match u.act? a with
        | none => True
        | some v => v.ForwardRun (v.files.opened days) rest) :=
      match u.act? a with
      | none => inferInstanceAs (Decidable True)
      | some v => decidableForwardRun v (v.files.opened days) rest
    inferInstanceAs (Decidable (_ ∧ _))

/-- Compressing the file of a day changes nothing of other days. -/
theorem fileOf?_compressFile_of_ne {day other : Date} (hne : other ≠ day) (archived : Bool) :
    (v.compressFile (s₀.pathFor day)).files.tree.fileOf? (s₀.filePath archived other) =
      v.files.tree.fileOf? (s₀.filePath archived other) :=
  fileOf?_congr fun _ found => fileAt?_compress_of_ne
    (placeOf_ne archived false found (.inr hne.symm))
    (placeOf_ne archived true found (.inr hne.symm)) none

/-- An act does nothing to the files of the days that are behind, and they stay behind. -/
theorem ahead_act (h : Ahead s₀ v.files days) (forward : v.Forward days a)
    (ha : v.act? a = some w) :
    Ahead s₀ w.files (w.files.opened days) ∧
      ∀ d, v.files.Behind days d →
        w.files.Behind (w.files.opened days) d ∧ LeftAlone v a w (s₀.pathFor d) := by
  have wrote : ∀ {obstacle : Option Obstacle} {data : Bytes} {received : Int},
      a = .write obstacle data received →
      w.files.directory = v.files.directory ∧ w.files.filePrefix = v.files.filePrefix ∧
        Outcome v.files (Date.ofMillis received) w.files →
      Ahead s₀ w.files (w.files.opened days) ∧ ∀ d, v.files.Behind days d →
        w.files.Behind (w.files.opened days) d ∧ LeftAlone v a w (s₀.pathFor d) := by
    rintro obstacle data received rfl ⟨directory, filePrefix, outcome⟩
    obtain ⟨after, still⟩ := h.write ⟨directory, filePrefix⟩ forward outcome
    have same := fun d (behind : v.files.Behind days d) archived => fileOf?_congr fun place found =>
      h.fileAt?_of_outcome after outcome behind (still d behind) archived found
    refine ⟨after, fun d behind => ⟨still d behind, fun opened => ?_, after.shut (still d behind),
      fun _ => same d behind false, fun _ => same d behind true,
      fun _ => h.mem_compressing_of_outcome outcome behind⟩⟩
    obtain ⟨path, closed, room⟩ := opened_mem_notices opened
    rw [h.pathFor_eq] at path
    exact Date.ne_of_lt (h.lt_of_room room forward behind.1) (s₀.pathFor_injective path)
  cases change_of_act? ha with
  | wrote done => exact wrote rfl (outcome_of_ok h.isAnchor_current done)
  | refused failed => exact wrote rfl (outcome_of_error failed)
  | flushed =>
    have pending := compressing_flush v.files
    have after := h.keep ⟨(config_flush v.files).1, (config_flush v.files).2.1⟩ (current_flush v.files)
      (pending ▸ List.Sublist.refl _)
    have same := fun d (behind : v.files.Behind days d) archived => fileOf?_congr fun place found =>
      h.fileAt?_flush behind archived found
    refine ⟨after, fun d behind => ?_⟩
    have still := Ahead.behind_of_keep
      (fun day hd => (current_flush v.files day hd).imp fun c hc => ⟨hc.1, hc.2.1⟩) behind
    exact ⟨still, by simp [notices], after.shut still, fun _ => same d behind false,
      fun _ => same d behind true, fun _ => pending ▸ Iff.rfl⟩
  | @compressed path pending =>
    have after : Ahead s₀ (v.compressFile path).files _ :=
      h.keep ⟨rfl, rfl⟩ (fun day hd => ⟨day, hd, rfl, rfl, rfl⟩) List.erase_sublist
    obtain ⟨day, -, rfl⟩ := h.behind_of_pending pending
    refine ⟨after, fun d behind => ?_⟩
    have still : (v.compressFile (s₀.pathFor day)).files.Behind _ d :=
      Ahead.behind_of_keep (fun day hd => ⟨day, hd, rfl⟩) behind
    have ne : Act.compress (s₀.pathFor day) ≠ .compress (s₀.pathFor d) → d ≠ day :=
      fun other same => other (by rw [same])
    refine ⟨still, by simp [notices], after.shut still,
      fun other => fileOf?_compressFile_of_ne (ne other) false,
      fun other => fileOf?_compressFile_of_ne (ne other) true, fun other => ?_⟩
    exact List.mem_erase_of_ne fun c => ne other (s₀.pathFor_injective c)

/-! ## Runs -/

/-- Once the file of a day is compressed, its content is in the archive and it is gone, or it is
left as it is. -/
theorem Fate.compressed {day : Date} (same : v.files.tree.fileOf? (s₀.pathFor day) =
      u.files.tree.fileOf? (s₀.pathFor day)) (once : v.files.compressing.Nodup) :
    Fate u (v.compressFile (s₀.pathFor day)) (s₀.pathFor day) := by
  have settled : s₀.pathFor day ∉ (v.compressFile (s₀.pathFor day)).files.compressing :=
    fun mem => absurd rfl (once.mem_erase_iff.1 mem).1
  cases done : (v.files.tree.compress (s₀.pathFor day) none).2 with
  | false =>
    refine .left settled (by simp [compressFile, done]) ?_
    rw [← same]
    exact congrArg (fun t => fileOf? t (s₀.pathFor day)) (compress_of_failed done)
  | true =>
    have moved := archived_compress (s₀.apart_placeOf day) done
    refine .archived settled moved.gone ?_
    rw [contentOf_of_fileOf? same.symm, ← contentOf_of_fileOf? rfl]
    exact moved.kept

/-- What becomes of a file that was handed over by an act that leaves it alone. -/
theorem Fate.act {day : Date} (fate : Fate u v (s₀.pathFor day))
    (alone : LeftAlone v a w (s₀.pathFor day)) (once : v.files.compressing.Nodup)
    (ha : v.act? a = some w) : Fate u w (s₀.pathFor day) := by
  by_cases compress : a = .compress (s₀.pathFor day)
  · subst compress
    cases change_of_act? ha with
    | compressed pending =>
      cases fate with
      | waiting _ same => exact .compressed same once
      | archived settled | left settled => exact absurd pending settled
  · have file := alone.file compress
    have archive := alone.archive compress
    have pending := alone.pending compress
    cases fate with
    | waiting waits same => exact .waiting (pending.2 waits) (file.trans same)
    | archived settled gone kept =>
      exact .archived (fun mem => settled (pending.1 mem)) (file.trans gone) (archive.trans kept)
    | left settled failed same =>
      exact .left (fun mem => settled (pending.1 mem)) (left_subset_of_act? ha failed)
        (file.trans same)

/-- What acts leave when a record that finds no file open is of a later day than all whose files
were open. -/
theorem ahead_run (h : Ahead s₀ v.files days) (forward : v.ForwardRun days (first ++ rest))
    (ran : v.run? first = some w) :
    ∃ later, Ahead s₀ w.files later ∧ w.ForwardRun later rest ∧
      ∀ d, v.files.Behind days d → w.files.Behind later d ∧
        (Fate u v (s₀.pathFor d) → Fate u w (s₀.pathFor d)) := by
  induction first generalizing v days with
  | nil =>
    cases ran
    exact ⟨days, h, forward, fun d behind => ⟨behind, id⟩⟩
  | cons a first ih =>
    obtain ⟨mid, ha, ran⟩ := Option.bind_eq_some_iff.1 ran
    obtain ⟨now, forward⟩ := forward
    rw [ha] at forward
    obtain ⟨after, alone⟩ := ahead_act h now ha
    obtain ⟨later, ahead, forward, fates⟩ := ih after forward ran
    refine ⟨later, ahead, forward, fun d behind => ?_⟩
    obtain ⟨still, alone⟩ := alone d behind
    obtain ⟨still, fate⟩ := fates d still
    exact ⟨still, fun held => fate (held.act alone h.once ha)⟩

/-- **Files that were handed over.**  As long as a record that finds no file open is of a later day
than all whose files were open, no act opens or writes a file that was handed over: it is as it was
until it is compressed.  Then its content is in the archive and it is gone, or it could not be
compressed and stays as it is; and so it remains. -/
theorem leftAlone_of_run (closed : s₀.current = none) (idle : s₀.compressing = [])
    (forward : ForwardRun { files := s₀ } [] (first ++ (rest ++ [a])))
    (before : run? { files := s₀ } first = some u) (pending : path ∈ u.files.compressing)
    (since : u.run? rest = some v) (ha : v.act? a = some w) :
    LeftAlone v a w path ∧ Fate u w path := by
  obtain ⟨days, ahead, forward, -⟩ := ahead_run (u := u) (Ahead.new closed idle) forward before
  obtain ⟨day, behind, rfl⟩ := ahead.behind_of_pending pending
  obtain ⟨later, after, forward, fates⟩ := ahead_run (u := u) ahead forward since
  obtain ⟨still, fate⟩ := fates day behind
  obtain ⟨-, alone⟩ := (ahead_act after forward.1 ha).2 day still
  exact ⟨alone, (fate (.waiting pending rfl)).act alone after.once ha⟩

/-- Day files before their first use. -/
def unused : DayFiles where
  directory := "out"
  filePrefix := "feed"

/-- A record of a first day, and one of the next day that is refused. -/
def handing : List Act :=
  [.write none [65, 10] 1709251200000, .write (some (.file .isADirectory)) [66, 10] 1709337600000]

/-- Another record of the second day, while the file of the first is compressed. -/
def resumed : List Act :=
  [.write none [67, 10] 1709337600000, .compress "out/feed-2024-03-01.log"]

/-- A record of the first day that comes late. -/
def late : Act := .write none [68, 10] 1709251200000

/-- The late record goes into the file of the second day, and the archive of the first day has what
was written before. -/
theorem leftAlone_of_run_resumed :
    ForwardRun { files := unused } [] (handing ++ (resumed ++ [late])) ∧
      ∃ u v w, run? { files := unused } handing = some u ∧
        "out/feed-2024-03-01.log" ∈ u.files.compressing ∧
        u.run? resumed = some v ∧ v.act? late = some w ∧
        .opened "out/feed-2024-03-01.log" ∉ v.notices late ∧
        w.written.map (·.1) = [[65, 10], [67, 10], [68, 10]] ∧
        w.files.tree.fileOf? "out/feed-2024-03-01.log.lz4" = some (.archive [65, 10]) := by
  have forward : ForwardRun { files := unused } [] (handing ++ (resumed ++ [late])) := by
    decide +kernel
  have before : (run? { files := unused } handing).map (fun u =>
      (u.files.compressing, u.files.tree.contentOf "out/feed-2024-03-01.log")) =
      some (["out/feed-2024-03-01.log"], [65, 10]) := by decide +kernel
  have whole : ((run? { files := unused } handing).bind fun u => (u.run? resumed).bind fun v =>
      (v.act? late).map fun w => (w.files.compressing, w.left, w.written.map (·.1))) =
      some ([], [], [[65, 10], [67, 10], [68, 10]]) := by decide +kernel
  obtain ⟨u, before, handed⟩ := Option.map_eq_some_iff.1 before
  obtain ⟨pending, content⟩ := Prod.mk.inj handed
  rw [before, Option.bind_some] at whole
  obtain ⟨v, since, whole⟩ := Option.bind_eq_some_iff.1 whole
  obtain ⟨w, ha, ended⟩ := Option.map_eq_some_iff.1 whole
  simp only [Prod.mk.injEq] at ended
  obtain ⟨settled, left, written⟩ := ended
  have mem : "out/feed-2024-03-01.log" ∈ u.files.compressing := by simp [pending]
  obtain ⟨alone, fate⟩ := leftAlone_of_run rfl rfl forward before mem since ha
  refine ⟨forward, u, v, w, before, mem, since, ha, alone.unopened, written, ?_⟩
  cases fate with
  | waiting waits => simp [settled] at waits
  | archived _ _ kept => exact content ▸ kept
  | left _ failed => simp [left] at failed

/-- A late record that finds no file open, because the one before it was refused, opens the file
that was handed over; the record that was written to it before is lost once the file is compressed
again. -/
theorem reopened_of_refused :
    ∃ u v w, run? { files := unused } handing = some u ∧
      "out/feed-2024-03-01.log" ∈ u.files.compressing ∧
      u.act? (.compress "out/feed-2024-03-01.log") = some v ∧
      .opened "out/feed-2024-03-01.log" ∈ v.notices late ∧
      v.run? (late :: resumed) = some w ∧
      w.written.map (·.1) = [[65, 10], [68, 10], [67, 10]] ∧
      w.files.holds ⟨2024, 3, 1⟩ = [68, 10] := by
  have before : (run? { files := unused } handing).map (fun u => u.files.compressing) =
      some ["out/feed-2024-03-01.log"] := by decide +kernel
  have whole : ((run? { files := unused } handing).bind fun u =>
      (u.act? (.compress "out/feed-2024-03-01.log")).bind fun v =>
        (v.run? (late :: resumed)).map fun w =>
          (v.notices late, w.written.map (·.1), w.files.holds ⟨2024, 3, 1⟩)) =
      some ([.opened "out/feed-2024-03-01.log"], [[65, 10], [68, 10], [67, 10]], [68, 10]) := by
    decide +kernel
  obtain ⟨u, before, pending⟩ := Option.map_eq_some_iff.1 before
  rw [before, Option.bind_some] at whole
  obtain ⟨v, compressed, whole⟩ := Option.bind_eq_some_iff.1 whole
  obtain ⟨w, after, ended⟩ := Option.map_eq_some_iff.1 whole
  simp only [Prod.mk.injEq] at ended
  obtain ⟨notices, written, held⟩ := ended
  exact ⟨u, v, w, before, by simp [pending], compressed, by simp [notices], after, written, held⟩

end InUse

end FeedCapture.DayFiles
