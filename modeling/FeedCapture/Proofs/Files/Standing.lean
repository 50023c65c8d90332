import FeedCapture.Proofs.Files.Landing

/-!
# Each file while records are written

As long as no operation fails, it is known of every file what it will be once the buffer is written.
The file of a day that was written to has what it had before and then the lines of the day's
records; when it is compressed, the archive of the day has that instead; and every other file is
what it was before.

## Main definitions

* `DayFiles.grown` — what the file of a day had before, and then the lines of its records
* `DayFiles.Standing` — what holds while records are written

The main statements are `Standing.write`, `Standing.flushed`, `Standing.compressed` and
`Standing.closed`.
-/

namespace FeedCapture.DayFiles

open FileTree

variable {s₀ s s' : DayFiles} {stays : Option Date} {filed : List (Date × Bytes)}

/-- What the file of a day had before and then the lines of its records. -/
def grown (s₀ : DayFiles) (date : Date) (filed : List (Date × Bytes)) : Bytes :=
  s₀.tree.contentOf (s₀.pathFor date) ++ linesOf date filed

/-- The file of a day stays as it is so far: files are not compressed, or the day is the one that
stays open, or its file is still to be compressed. -/
def Waits (s₀ : DayFiles) (pending : List String) (stays : Option Date) (date : Date) : Prop :=
  s₀.compress = false ∨ stays = some date ∨ s₀.pathFor date ∈ pending

/-- What holds while records are written and no operation fails: `s₀` are the day files before, and
`filed` are the records with their days. -/
structure Standing (s₀ s : DayFiles) (stays : Option Date) (filed : List (Date × Bytes)) :
    Prop where
  directory : s.directory = s₀.directory
  filePrefix : s.filePrefix = s₀.filePrefix
  compress : s.compress = s₀.compress
  placed : ∀ day ∈ s.current,
    stays = some day.date ∧ day.path = s₀.pathFor day.date ∧ placeOf day.path = day.place
  /-- What is still to be compressed is the file of a day that does not stay open. -/
  handed : ∀ path ∈ s.compressing, s₀.compress = true ∧
    ∃ f ∈ filed, path = s₀.pathFor f.1 ∧ stays ≠ some f.1
  once : s.compressing.Nodup
  plain : ∀ f ∈ filed, Waits s₀ s.compressing stays f.1 →
    s.landed.fileOf? (s₀.pathFor f.1) = some (.file (grown s₀ f.1 filed))
  moved : ∀ f ∈ filed, ¬ Waits s₀ s.compressing stays f.1 →
    s.landed.fileOf? (s₀.pathFor f.1) = none ∧
      s.landed.fileOf? (s₀.archiveFor f.1) = some (.archive (grown s₀ f.1 filed))
  others : ∀ place, (∀ f ∈ filed, placeOf (s₀.pathFor f.1) ≠ place) →
    (∀ f ∈ filed, ¬ Waits s₀ s.compressing stays f.1 →
      placeOf (s₀.archiveFor f.1) ≠ place) →
    s.landed.fileAt? place = s₀.tree.fileAt? place

/-- The files of different days, and their archives, are at different places. -/
theorem placeOf_ne (archived archived' : Bool) {date date' : Date} {place : Place}
    (h : placeOf (s₀.filePath archived date) = place)
    (hne : archived' ≠ archived ∨ date' ≠ date) :
    placeOf (s₀.filePath archived' date') ≠ place := by
  intro h'
  obtain ⟨kind, day⟩ := s₀.eq_of_placeOf archived' archived (h'.trans h.symm)
  rcases hne with hne | hne
  · exact hne kind
  · exact hne day

namespace Standing

/-- Before the first record. -/
theorem new (closed : s.current = none) (idle : s.compressing = []) : Standing s s none [] where
  directory := rfl
  filePrefix := rfl
  compress := rfl
  placed day hd := by rw [closed] at hd; cases hd
  handed path hp := by rw [idle] at hp; cases hp
  once := by rw [idle]; exact List.nodup_nil
  plain f hf := by cases hf
  moved f hf := by cases hf
  others place _ _ := by rw [landed_of_none closed]

theorem pathFor_eq (h : Standing s₀ s stays filed) (date : Date) :
    s.pathFor date = s₀.pathFor date := by
  rw [pathFor, pathFor, h.directory, h.filePrefix]

/-- What the file of a day that waits will have. -/
theorem contentAt_waiting {place : Place} (h : Standing s₀ s stays filed) {f : Date × Bytes}
    (hf : f ∈ filed) (wait : Waits s₀ s.compressing stays f.1)
    (found : placeOf (s₀.pathFor f.1) = place) :
    s.landed.contentAt place = grown s₀ f.1 filed := by
  have plain := h.plain f hf wait
  rw [fileOf?_eq found] at plain
  exact contentAt_of_file plain

/-- What the file of the day that is written to will have, before the next record. -/
theorem contentAt_eq {day : Date} {place : Place} (h : Standing s₀ s stays filed)
    (found : placeOf (s₀.pathFor day) = place)
    (free : stays = some day ∨ stays = none ∧ ∀ f ∈ filed, f.1 ≠ day) :
    s.landed.contentAt place = grown s₀ day filed := by
  by_cases known : ∃ f ∈ filed, f.1 = day
  · obtain ⟨f, hf, rfl⟩ := known
    have stays : stays = some f.1 := free.resolve_right fun c => c.2 f hf rfl
    exact h.contentAt_waiting hf (.inr (.inl stays)) found
  · have other : ∀ f ∈ filed, f.1 ≠ day := fun f hf same => known ⟨f, hf, same⟩
    rw [grown, linesOf_eq_nil other, List.append_nil, contentOf_eq found]
    exact contentAt_of_fileAt? (h.others place
      (fun f hf => placeOf_ne false false found (.inr (other f hf)))
      (fun f _ _ => placeOf_ne false true found (.inl (by decide))))

/-- The file and the archive of a day that was not written to are what they were before. -/
theorem unfiled {date : Date} (h : Standing s₀ s stays filed) (other : ∀ f ∈ filed, f.1 ≠ date)
    (archived : Bool) :
    s.landed.fileOf? (s₀.filePath archived date) = s₀.tree.fileOf? (s₀.filePath archived date) :=
  fileOf?_congr fun place found => h.others place
    (fun f hf => placeOf_ne archived false found (.inr (other f hf)))
    (fun f hf _ => placeOf_ne archived true found (.inr (other f hf)))

/-- The archive of a day that waits is what it was before. -/
theorem archive_eq {f : Date × Bytes} (h : Standing s₀ s stays filed)
    (wait : Waits s₀ s.compressing stays f.1) :
    s.landed.fileOf? (s₀.archiveFor f.1) = s₀.tree.fileOf? (s₀.archiveFor f.1) := by
  refine fileOf?_congr fun place found => h.others place
    (fun g _ => placeOf_ne true false found (.inl (by decide))) fun g _ moved => ?_
  refine placeOf_ne true true found (.inr fun same => moved ?_)
  rw [same]
  exact wait

/-- A record is written to the open day, or to a day that is opened for it. -/
theorem wrote {day : OpenDay} {data : Bytes} (h : Standing s₀ s stays filed)
    (directory : s'.directory = s.directory) (filePrefix : s'.filePrefix = s.filePrefix)
    (compress : s'.compress = s.compress) (pending : s'.compressing = s.compressing)
    (open? : s'.current = some day) (path : day.path = s₀.pathFor day.date)
    (place : placeOf day.path = day.place)
    (free : stays = some day.date ∨ stays = none ∧ ∀ f ∈ filed, f.1 ≠ day.date)
    (lined : Lined s.landed s'.landed day.place data) :
    Standing s₀ s' (some day.date) (filed ++ [(day.date, data)]) := by
  have found : placeOf (s₀.pathFor day.date) = day.place := path ▸ place
  have content := h.contentAt_eq found free
  -- no other day waits because of this one
  have waits : ∀ f ∈ filed, Waits s₀ s'.compressing (some day.date) f.1 ↔
      Waits s₀ s.compressing stays f.1 := by
    intro f hf
    unfold Waits
    rw [pending]
    rcases free with stays | ⟨stays, fresh⟩
    · rw [stays]
    · have hne := fresh f hf
      simp [stays, Ne.symm hne]
  have lines : ∀ date, date ≠ day.date →
      grown s₀ date (filed ++ [(day.date, data)]) = grown s₀ date filed := by
    intro date hne
    simp [grown, linesOf_append, Ne.symm hne]
  have file : ∀ date, date ≠ day.date →
      s'.landed.fileOf? (s₀.pathFor date) = s.landed.fileOf? (s₀.pathFor date) := fun date hne =>
    fileOf?_congr fun place hp => lined.others place fun same =>
      placeOf_ne false false found (.inr hne) (hp.trans same)
  have archive : ∀ date,
      s'.landed.fileOf? (s₀.archiveFor date) = s.landed.fileOf? (s₀.archiveFor date) := fun date =>
    fileOf?_congr fun place hp => lined.others place fun same =>
      placeOf_ne false true found (.inl (by decide)) (hp.trans same)
  have older : ∀ f ∈ filed ++ [(day.date, data)], f.1 ≠ day.date → f ∈ filed := by
    intro f hf hne
    rcases List.mem_append.1 hf with hf | hf
    · exact hf
    · rw [List.mem_singleton.1 hf] at hne
      exact absurd rfl hne
  refine ⟨directory.trans h.directory, filePrefix.trans h.filePrefix, compress.trans h.compress,
    ?_, fun path' hp => ?_, pending ▸ h.once, fun f hf wait => ?_, fun f hf wait => ?_,
    fun other files archives => ?_⟩
  · intro day' hd
    rw [open?] at hd
    cases hd
    exact ⟨rfl, path, place⟩
  · rw [pending] at hp
    obtain ⟨compress, f, hf, named, left⟩ := h.handed path' hp
    refine ⟨compress, f, List.mem_append_left _ hf, named, ?_⟩
    rcases free with stays | ⟨-, fresh⟩
    · rwa [← stays]
    · exact fun c => fresh f hf (Option.some.inj c).symm
  · by_cases same : f.1 = day.date
    · rw [same, fileOf?_eq found, lined.file, content]
      simp [grown, linesOf_append]
    · have hf := older f hf same
      rw [file _ same, lines _ same]
      exact h.plain f hf ((waits f hf).1 wait)
  · have same : f.1 ≠ day.date := fun same => wait (.inr (.inl (by rw [same])))
    have hf := older f hf same
    have moved := h.moved f hf fun c => wait ((waits f hf).2 c)
    rw [file _ same, archive, lines _ same]
    exact moved
  · have elsewhere : other ≠ day.place := by
      rintro rfl
      exact files _ (List.mem_append_right _ (List.mem_singleton.2 rfl)) found
    rw [lined.others other elsewhere]
    exact h.others other (fun f hf => files f (List.mem_append_left _ hf))
      (fun f hf wait => archives f (List.mem_append_left _ hf) fun c => wait ((waits f hf).1 c))

/-- All that counts is what the files will have, and which of them are handed over. -/
theorem congr (h : Standing s₀ s stays filed)
    (config : s'.directory = s.directory ∧ s'.filePrefix = s.filePrefix ∧ s'.compress = s.compress)
    (pending : s'.compressing = s.compressing)
    (landed : ∀ place, s'.landed.fileAt? place = s.landed.fileAt? place)
    (placed : ∀ day ∈ s'.current,
      stays = some day.date ∧ day.path = s₀.pathFor day.date ∧ placeOf day.path = day.place) :
    Standing s₀ s' stays filed := by
  have files : ∀ path, s'.landed.fileOf? path = s.landed.fileOf? path := fun path =>
    fileOf?_congr fun place _ => landed place
  refine ⟨config.1.trans h.directory, config.2.1.trans h.filePrefix, config.2.2.trans h.compress,
    placed, pending ▸ h.handed, pending ▸ h.once, fun f hf wait => ?_, fun f hf moved => ?_,
    fun place file archive => ?_⟩
  · rw [files]
    exact h.plain f hf (pending ▸ wait)
  · rw [files, files]
    exact h.moved f hf (pending ▸ moved)
  · rw [landed]
    exact h.others place file fun f hf moved => archive f hf (by rwa [pending])

/-- What is in the buffer is written. -/
theorem flushed (h : Standing s₀ s stays filed) : Standing s₀ s.flush stays filed := by
  refine h.congr (config_flush s) (compressing_flush s) (fun _ => by rw [landed_flush])
    fun day hd => ?_
  obtain ⟨c, open?, date, path, place⟩ := current_flush s day hd
  rw [date, path, place]
  exact h.placed c open?

/-- The open day is closed, and stays as it is. -/
theorem closed (h : Standing s₀ s stays filed) : Standing s₀ s.shut stays filed :=
  h.congr (config_flush s) (compressing_flush s) (fun _ => by rw [landed_shut])
    fun day hd => by cases hd

/-- The open day is closed and its file handed over, if files are compressed. -/
theorem rotated {day : OpenDay} (h : Standing s₀ s stays filed) (open? : s.current = some day)
    (known : ∃ f ∈ filed, f.1 = day.date) : Standing s₀ (s.rotate day).1 none filed := by
  obtain ⟨rfl, path, place⟩ := h.placed day open?
  have found : placeOf (s₀.pathFor day.date) = day.place := path ▸ place
  have fresh : day.path ∉ s.compressing := by
    intro hp
    obtain ⟨-, f, -, named, left⟩ := h.handed _ hp
    rw [path] at named
    exact left (congrArg some (s₀.pathFor_injective named))
  have pending : (s.rotate day).1.compressing =
      if s₀.compress then s.compressing ++ [day.path] else s.compressing := by
    rw [← h.compress]
    rfl
  -- the day waits to be compressed where it stayed open before
  have waits : ∀ f ∈ filed, Waits s₀ (s.rotate day).1.compressing none f.1 ↔
      Waits s₀ s.compressing (some day.date) f.1 := by
    intro f _
    unfold Waits
    rw [pending]
    cases compress : s₀.compress with
    | false => simp
    | true =>
      have same : s₀.pathFor f.1 = day.path ↔ f.1 = day.date := by
        rw [path]
        exact ⟨s₀.pathFor_injective, fun same => by rw [same]⟩
      simp [same, or_comm, eq_comm]
  refine ⟨h.directory, h.filePrefix, h.compress, fun day hd => (by cases hd), fun path' hp => ?_,
    ?_, fun f hf wait => ?_, fun f hf wait => ?_, fun other file archive => ?_⟩
  · rw [pending] at hp
    split at hp
    · next compress =>
      rcases List.mem_append.1 hp with hp | hp
      · obtain ⟨-, f, hf, named, -⟩ := h.handed path' hp
        exact ⟨compress, f, hf, named, by simp⟩
      · obtain ⟨f, hf, same⟩ := known
        exact ⟨compress, f, hf, by rw [List.mem_singleton.1 hp, path, same], by simp⟩
    · obtain ⟨compress, f, hf, named, -⟩ := h.handed path' hp
      exact ⟨compress, f, hf, named, by simp⟩
  · rw [pending]
    split
    · refine List.nodup_append.2 ⟨h.once, by simp, fun path' hp other ho => ?_⟩
      rw [List.mem_singleton.1 ho]
      rintro rfl
      exact fresh hp
    · exact h.once
  · rw [landed_rotate open?]
    exact h.plain f hf ((waits f hf).1 wait)
  · rw [landed_rotate open?]
    exact h.moved f hf fun c => wait ((waits f hf).2 c)
  · rw [landed_rotate open?]
    exact h.others other file fun f hf wait => archive f hf fun c => wait ((waits f hf).1 c)

/-- A file that was handed over is compressed. -/
theorem compressed {path : String} (h : Standing s₀ s stays filed) (hp : path ∈ s.compressing)
    (ok : (s.tree.compress path none).2 = true) :
    Standing s₀ (s.compressFile path) stays filed := by
  obtain ⟨compress, g, hg, rfl, left⟩ := h.handed path hp
  obtain ⟨source, archive, hs, ha, done⟩ : ∃ source archive, placeOf (s₀.pathFor g.1) = source ∧
      placeOf (s₀.archiveFor g.1) = archive ∧
      Archived s.tree (s.tree.compress (s₀.pathFor g.1) none).1 source archive :=
    ⟨_, _, rfl, rfl, archived_compress (s₀.apart_placeOf g.1) ok⟩
  have landed : Archived s.landed (s.compressFile (s₀.pathFor g.1)).landed source archive := by
    refine archived_compressFile (fun day open? => ?_) done
    obtain ⟨stay, path, place⟩ := h.placed day open?
    have found : placeOf (s₀.pathFor day.date) = day.place := path ▸ place
    have other : day.date ≠ g.1 := fun same => left (by rw [stay, same])
    refine ⟨s₀.isAnchor_of_placeOf false found, ?_, ?_⟩
    · rintro rfl
      exact placeOf_ne false false hs (.inr other) found
    · rintro rfl
      exact placeOf_ne true false ha (.inl (by decide)) found
  have waits : ∀ date, Waits s₀ (s.compressFile (s₀.pathFor g.1)).compressing stays date ↔
      Waits s₀ s.compressing stays date ∧ date ≠ g.1 := by
    intro date
    have erased : s₀.pathFor date ∈ s.compressing.erase (s₀.pathFor g.1) ↔
        s₀.pathFor date ≠ s₀.pathFor g.1 ∧ s₀.pathFor date ∈ s.compressing := h.once.mem_erase_iff
    show Waits s₀ (s.compressing.erase _) stays date ↔ _
    unfold Waits
    rw [erased]
    by_cases same : date = g.1
    · subst same
      simp [compress, left]
    · have named : s₀.pathFor date ≠ s₀.pathFor g.1 := fun c => same (s₀.pathFor_injective c)
      simp [same, named]
  have elsewhere : ∀ archived date, date ≠ g.1 →
      (s.compressFile (s₀.pathFor g.1)).landed.fileOf? (s₀.filePath archived date) =
        s.landed.fileOf? (s₀.filePath archived date) := by
    refine fun archived date hne => fileOf?_congr fun place hp => landed.others place ?_ ?_
    · rintro rfl
      exact placeOf_ne false archived hs (.inr hne) hp
    · rintro rfl
      exact placeOf_ne true archived ha (.inr hne) hp
  refine ⟨h.directory, h.filePrefix, h.compress, h.placed, fun path' hp' => ?_, h.once.erase _,
    fun f hf wait => ?_, fun f hf wait => ?_, fun other file archives => ?_⟩
  · exact h.handed path' (List.mem_of_mem_erase hp')
  · obtain ⟨wait, hne⟩ := (waits f.1).1 wait
    exact (elsewhere false f.1 hne).trans (h.plain f hf wait)
  · by_cases same : f.1 = g.1
    · have content := h.contentAt_waiting hg (.inr (.inr hp)) hs
      rw [same, ← content]
      exact ⟨(fileOf?_eq hs).trans landed.gone, (fileOf?_eq ha).trans landed.kept⟩
    · have moved := h.moved f hf fun c => wait ((waits f.1).2 ⟨c, same⟩)
      exact ⟨(elsewhere false f.1 same).trans moved.1, (elsewhere true f.1 same).trans moved.2⟩
  · rw [landed.others other]
    · exact h.others other file fun f hf wait => archives f hf fun c => wait ((waits f.1).1 c).1
    · rintro rfl
      exact file g hg hs
    · rintro rfl
      exact archives g hg (fun c => ((waits g.1).1 c).2 rfl) ha

/-- A line is added to a day, which was open or is opened with the files as they were. -/
theorem putLine {day : OpenDay} {tree : FileTree} (h : Standing s₀ s stays filed) (data : Bytes)
    (path : day.path = s₀.pathFor day.date) (place : placeOf day.path = day.place)
    (free : stays = some day.date ∨ stays = none ∧ ∀ f ∈ filed, f.1 ≠ day.date)
    (content : (day.flush tree).1.contentAt day.place = s.landed.contentAt day.place)
    (others : ∀ other, other ≠ day.place →
      (day.flush tree).1.fileAt? other = s.landed.fileAt? other) :
    Standing s₀
      { s with tree := (day.putLine tree data).1, current := some (day.putLine tree data).2 }
      (some day.date) (filed ++ [(day.date, data)]) := by
  have plain : isAnchor day.place = false := s₀.isAnchor_of_placeOf false (path ▸ place)
  have wrote := wrote_putLine tree data plain
  have lined := lined_putLine tree data plain
  rw [← wrote.date] at free ⊢
  refine h.wrote rfl rfl rfl rfl rfl ?_ ?_ free ⟨?_, fun other hne => ?_⟩
  · rw [wrote.path, wrote.date, path]
  · rw [wrote.path, wrote.place, place]
  · rw [wrote.place, ← content]
    exact lined.file
  · rw [wrote.place] at hne
    rw [← others other hne]
    exact lined.others other hne

/-- A record that is written is filed under the open day, or under its date when that is later. -/
theorem write {obstacle : Option Obstacle} {data : Bytes} {received : Int} {notices : List Notice}
    (h : Standing s₀ s (s.current.map (·.date)) filed)
    (known : ∀ day ∈ s.current, ∃ f ∈ filed, f.1 = day.date)
    (fresh : (∀ day ∈ s.current, day.date.lt (Date.ofMillis received) = true) →
      ∀ f ∈ filed, f.1 ≠ Date.ofMillis received)
    (hw : s.writeDespite obstacle data received = (s', .ok (), notices)) :
    s'.current.map (·.date) =
        some (filedUnder (s.current.map (·.date)) (Date.ofMillis received)) ∧
      Standing s₀ s' (s'.current.map (·.date)) (filed ++
        [(filedUnder (s.current.map (·.date)) (Date.ofMillis received), data)]) := by
  obtain ⟨s₁, day, found, rfl⟩ := writeDespite_ok hw
  have date : ∀ tree, isAnchor day.place = false → (day.putLine tree data).2.date = day.date :=
    fun tree plain => (wrote_putLine tree data plain).date
  rcases dayFor_ok found with ⟨open?, straggler, rfl⟩ | ⟨closed, tree, before, rfl, under, opened⟩
  · obtain ⟨-, path, place⟩ := h.placed day open?
    have same : filedUnder (s₁.current.map (·.date)) (Date.ofMillis received) = day.date := by
      simp [open?, filedUnder, straggler]
    have stays : s₁.current.map (·.date) = some day.date := by rw [open?]; rfl
    have landed := landed_of_some open?
    rw [same, Option.map_some, date _ (s₀.isAnchor_of_placeOf false (path ▸ place))]
    exact ⟨rfl, h.putLine data path place (.inl stays) (by rw [landed]) fun _ _ => by rw [landed]⟩
  · -- the open day is closed first, so nothing stays open
    have standing : Standing s₀ closed none filed := by
      rcases before with ⟨none, rfl⟩ | ⟨c, open?, -, rfl⟩
      · rw [none] at h
        exact h
      · exact h.rotated open? (known c open?)
    have later : ∀ c ∈ s.current, c.date.lt (Date.ofMillis received) = true := by
      rcases before with ⟨none, -⟩ | ⟨c, open?, lt, -⟩
      · simp [none]
      · simpa [open?] using lt
    have same : filedUnder (s.current.map (·.date)) (Date.ofMillis received) = day.date := by
      rw [under]
      cases open? : s.current with
      | none => rfl
      | some c => simp [filedUnder, Date.le, later c open?]
    have path : day.path = s₀.pathFor day.date := opened.path.trans (standing.pathFor_eq _)
    have none : closed.current = none := by
      rcases before with ⟨none, rfl⟩ | ⟨c, open?, -, rfl⟩
      · exact none
      · rfl
    have landed := landed_of_none none
    rw [same, Option.map_some, date _ (s₀.isAnchor_of_placeOf false (path ▸ opened.place))]
    refine ⟨rfl, standing.putLine data path opened.place (.inr ⟨rfl, ?_⟩) ?_ fun other hne => ?_⟩
    · rw [under]
      exact fresh later
    · rw [flush_of_empty _ opened.empty, landed]
      exact opened.same _
    · rw [flush_of_empty _ opened.empty, landed]
      exact opened.others other hne

/-- What is left of a day that was written to, once no file is open and none is to be compressed. -/
theorem settled {f : Date × Bytes} (h : Standing s₀ s stays filed) (closed : s.current = none)
    (idle : s.compressing = []) (hf : f ∈ filed) :
    if s₀.compress ∧ stays ≠ some f.1 then
      s.tree.fileOf? (s₀.pathFor f.1) = none ∧
        s.tree.fileOf? (s₀.archiveFor f.1) = some (.archive (grown s₀ f.1 filed))
    else
      s.tree.fileOf? (s₀.pathFor f.1) = some (.file (grown s₀ f.1 filed)) ∧
        s.tree.fileOf? (s₀.archiveFor f.1) = s₀.tree.fileOf? (s₀.archiveFor f.1) := by
  have waits : Waits s₀ s.compressing stays f.1 ↔ ¬ (s₀.compress ∧ stays ≠ some f.1) := by
    simp [Waits, idle, Classical.or_iff_not_imp_left]
  rw [← landed_of_none closed]
  split
  · next past => exact h.moved f hf fun wait => waits.1 wait past
  · next last => exact ⟨h.plain f hf (waits.2 last), h.archive_eq (waits.2 last)⟩

end Standing

end FeedCapture.DayFiles
