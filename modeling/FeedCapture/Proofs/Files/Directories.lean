import FeedCapture.Proofs.Files.Refusals

/-!
# What can be opened

Where a path leads depends on the directories alone.  Using day files makes directories only where
the one of the day files is missing, and never takes one away or puts one where a file is.  So the
file of a day can be opened at any time if it can be opened in the beginning, and only then,
whatever was refused in between.

## Main definitions

* `FileTree.DirectoriesIn`, `FileTree.SameDirectories` — file trees with the same directories
* `DayFiles.Housed`, `DayFiles.Footing` — what directories there are while day files are used

The main statements are `Footing.openable_eq`, `Footing.write` and `Footing.run`.
-/

namespace FeedCapture

namespace FileTree

variable {t t' made : FileTree} {name path : String} {names : List String}
  {place place' : Place} {node : Node} {w : Compression.Work}

/-- Every directory of a file tree is one of another. -/
def DirectoriesIn (t t' : FileTree) : Prop :=
  ∀ place, t.get? place = some .directory → t'.get? place = some .directory

/-- Two file trees have the same directories. -/
def SameDirectories (t t' : FileTree) : Prop := t.DirectoriesIn t' ∧ t'.DirectoriesIn t

theorem SameDirectories.refl (t : FileTree) : t.SameDirectories t :=
  ⟨fun _ => id, fun _ => id⟩

theorem SameDirectories.symm (h : t.SameDirectories t') : t'.SameDirectories t := ⟨h.2, h.1⟩

theorem SameDirectories.trans {mid : FileTree} (h : t.SameDirectories mid)
    (h' : mid.SameDirectories t') : t.SameDirectories t' :=
  ⟨fun place d => h'.1 place (h.1 place d), fun place d => h.2 place (h'.2 place d)⟩

/-! ## Walks -/

theorem DirectoriesIn.enter (h : t.DirectoriesIn t')
    (entered : t.enter place name = .ok place') : t'.enter place name = .ok place' := by
  unfold FileTree.enter at entered ⊢
  by_cases root : name = "/"
  · rw [if_pos root] at entered ⊢
    exact entered
  · rw [if_neg root] at entered ⊢
    split at entered
    · cases entered
    · next there =>
      rw [h place there]
      exact entered
    · cases entered

/-- What can be walked can be walked where there are more directories. -/
theorem DirectoriesIn.walk (h : t.DirectoriesIn t')
    (walked : names.foldlM t.enter place = .ok place') :
    names.foldlM t'.enter place = .ok place' := by
  induction names generalizing place with
  | nil => exact walked
  | cons name names ih =>
    rw [List.foldlM_cons] at walked ⊢
    cases entered : t.enter place name with
    | error e =>
      rw [entered] at walked
      cases walked
    | ok next =>
      rw [entered] at walked
      rw [h.enter entered]
      exact ih walked

theorem find?_directory_iff : t.find? names = some .directory ↔
    ∃ place, t.walk names = .ok place ∧ t.get? place = some .directory := by
  unfold find?
  split <;> (next walked => simp [walked])

theorem DirectoriesIn.find? (h : t.DirectoriesIn t') (found : t.find? names = some .directory) :
    t'.find? names = some .directory := by
  obtain ⟨place, walked, there⟩ := find?_directory_iff.1 found
  exact find?_directory_iff.2 ⟨place, h.walk walked, h place there⟩

/-- A path leads to the same place wherever the directories are the same. -/
theorem SameDirectories.target (h : t.SameDirectories t') (found : t.target path = .ok place) :
    t'.target path = .ok place := by
  unfold FileTree.target at found ⊢
  split at found
  · cases found
  · next nul =>
    split at found
    · cases found
    · next long =>
      split at found
      · cases found
      · next empty =>
        rw [if_neg nul, if_neg long, if_neg empty]
        split at found
        · cases found
        · next there walked =>
          have walked : t'.walk (FileTree.names path) = .ok there := h.1.walk walked
          rw [walked]
          split at found
          · cases found
          · next free =>
            cases found
            dsimp only
            rw [if_neg fun d => free (h.2 _ d)]

theorem isOk_openForAppend (t : FileTree) (path : String) :
    (t.openForAppend path).isOk = (t.target path).isOk := by
  unfold openForAppend
  split <;> (next found => rw [found]; rfl)

/-- What can be opened depends on the directories alone. -/
theorem SameDirectories.isOk_openForAppend (h : t.SameDirectories t') (path : String) :
    (t'.openForAppend path).isOk = (t.openForAppend path).isOk := by
  rw [FileTree.isOk_openForAppend, FileTree.isOk_openForAppend]
  cases found : t.target path with
  | ok place => rw [h.target found]
  | error e =>
    cases found' : t'.target path with
    | error e' => rfl
    | ok place =>
      rw [h.symm.target found'] at found
      cases found

/-! ## Changes -/

theorem isAnchor_of_free (free : t.get? place ≠ some .directory) : isAnchor place = false := by
  cases anchor : isAnchor place with
  | false => rfl
  | true => exact absurd (by simp [get?, anchor]) free

theorem directoriesIn_insert (free : t.get? place ≠ some .directory) (node : Node) :
    t.DirectoriesIn (t.insert place node) := by
  intro other there
  have hne : other ≠ place := fun same => free (same ▸ there)
  rw [get?_insert_of_ne t node hne]
  exact there

/-- A file where no directory is leaves the directories as they are. -/
theorem sameDirectories_insert (free : t.get? place ≠ some .directory) (file : node ≠ .directory) :
    t.SameDirectories (t.insert place node) := by
  refine ⟨directoriesIn_insert free node, fun other there => ?_⟩
  by_cases same : other = place
  · subst same
    rw [get?_insert_self t node (isAnchor_of_free free)] at there
    exact absurd (Option.some.inj there) file
  · rwa [get?_insert_of_ne t node same] at there

theorem sameDirectories_erase (free : t.get? place ≠ some .directory) :
    t.SameDirectories (t.erase place) := by
  refine ⟨fun other there => ?_, fun other there => ?_⟩
  · have hne : other ≠ place := fun same => free (same ▸ there)
    rw [get?_erase_of_ne t hne]
    exact there
  · by_cases same : other = place
    · subst same
      rw [get?_erase_self t (isAnchor_of_free free)] at there
      cases there
    · rwa [get?_erase_of_ne t same] at there

theorem SameDirectories.free (h : t.SameDirectories t') (free : t.get? place ≠ some .directory) :
    t'.get? place ≠ some .directory := fun there => free (h.2 place there)

/-- Opening a file leaves the directories as they are. -/
theorem sameDirectories_openForAppend (found : t.openForAppend path = .ok (t', place)) :
    t.SameDirectories t' ∧ t'.get? place ≠ some .directory := by
  unfold openForAppend at found
  split at found
  · cases found
  · next other target =>
    cases found
    have free := (target_ok target).2
    have same : t.SameDirectories
        (if (t.get? place).isSome then t else t.insert place (.file [])) := by
      split
      · exact .refl t
      · exact sameDirectories_insert free (by simp)
    exact ⟨same, same.free free⟩

theorem ofParts_ne_directory (parts : List Lz4.Part) : Node.ofParts parts ≠ .directory := by
  unfold Node.ofParts
  split <;> simp

theorem sameDirectories_perform {source archive : Place}
    (file : w.tree.get? source ≠ some .directory)
    (free : w.tree.get? archive ≠ some .directory) (act : Compression.Act) :
    w.tree.SameDirectories (Compression.perform source archive w act).tree := by
  cases act with
  | openSource | copy _ | encode | finish => exact .refl w.tree
  | createArchive | spill _ | flush => exact sameDirectories_insert free (ofParts_ne_directory _)
  | removeSource => exact sameDirectories_erase file

/-- Compressing leaves the directories as they are. -/
theorem sameDirectories_performAll {source archive : Place}
    (file : w.tree.get? source ≠ some .directory)
    (free : w.tree.get? archive ≠ some .directory) (acts : List Compression.Act) :
    w.tree.SameDirectories (Compression.performAll source archive w acts).tree := by
  induction acts generalizing w with
  | nil => exact .refl w.tree
  | cons act acts ih =>
    have first := sameDirectories_perform file free act
    exact first.trans (ih (first.free file) (first.free free))

theorem sameDirectories_compress (t : FileTree) (path : String) (interruption : Option Nat) :
    t.SameDirectories (t.compress path interruption).1 := by
  rcases Compression.compress_cases t path interruption with
    failed | ⟨source, archive, found, target, n, -, ran⟩
  · rw [failed]
    exact .refl t
  · rw [ran]
    exact sameDirectories_performAll (w := { tree := t }) (target_ok found).2 (target_ok target).2 _

/-! ## Making directories -/

theorem walk_concat {parent : Place} (walked : t.walk names = .ok parent) (name : String) :
    t.walk (names ++ [name]) = t.enter parent name := by
  unfold walk at walked ⊢
  rw [List.foldlM_append, walked]
  show [name].foldlM t.enter parent = _
  rw [List.foldlM_cons]
  cases t.enter parent name <;> rfl

/-- A directory that was made is found, and no other is lost. -/
theorem createDirectory_ok (h : t.createDirectory names = .ok t') :
    t.DirectoriesIn t' ∧ t'.find? names = some .directory := by
  unfold createDirectory at h
  split at h
  · cases h
  · next name last =>
    split at h
    · cases h
    · next parent walked =>
      split at h
      · cases h
      · next place entered =>
        split at h
        · cases h
        · next free =>
          cases h
          have free : t.get? place = none := by simpa using free
          have more : t.DirectoriesIn (t.insert place .directory) :=
            directoriesIn_insert (by simp [free]) .directory
          have whole : names.dropLast ++ [name] = names := List.dropLast_append_getLast? name last
          refine ⟨more, find?_directory_iff.2 ⟨place, ?_, ?_⟩⟩
          · rw [← whole, walk_concat (more.walk walked)]
            exact more.enter entered
          · exact get?_insert_self t _ (isAnchor_of_get? free)

theorem createDirectoriesAt_ok (h : t.createDirectoriesAt names = .ok t') :
    t'.find? names = some .directory := by
  revert h
  fun_induction createDirectoriesAt t names generalizing t' with
  | case1 =>
    intro h
    cases h
    rfl
  | case2 names nonempty made created =>
    intro h
    cases h
    exact (createDirectory_ok created).2
  | case3 => intro h; cases h
  | case4 names nonempty missing above reached made created ih =>
    intro h
    cases h
    exact (createDirectory_ok created).2
  | case5 names nonempty missing above reached e failed there ih =>
    intro h
    cases h
    exact there
  | case6 => intro h; cases h
  | case7 names nonempty e failed other there =>
    intro h
    cases h
    exact there
  | case8 => intro h; cases h

/-- A directory that is there is not made. -/
theorem createDirectory_of_find? (nonempty : names ≠ []) (there : t.find? names = some .directory) :
    t.createDirectory names = .error .alreadyThere := by
  obtain ⟨above, name, rfl⟩ := (List.eq_nil_or_concat names).resolve_left nonempty
  rw [List.concat_eq_append] at there ⊢
  cases walked : t.walk above with
  | error e =>
    have lost : t.walk (above ++ [name]) = .error e := by
      unfold walk at walked ⊢
      rw [List.foldlM_append, walked]
      rfl
    simp [find?_directory_iff, lost] at there
  | ok parent =>
    rw [find?_directory_iff, walk_concat walked] at there
    unfold createDirectory
    rw [List.getLast?_concat, List.dropLast_concat]
    dsimp only
    rw [walked]
    dsimp only
    obtain ⟨place, entered, there⟩ := there
    rw [entered]
    simp [there]

/-- Where a directory is already, nothing is made. -/
theorem createDirectoriesAt_of_find? (there : t.find? names = some .directory) :
    t.createDirectoriesAt names = .ok t := by
  unfold createDirectoriesAt
  split
  · rfl
  · next nonempty =>
    rw [createDirectory_of_find? nonempty there]

/-- Once a directory was made, nothing is to be made any more where the directories are the same. -/
theorem createDirectories_again (created : t.createDirectories path = .ok made)
    (same : made.SameDirectories t') : t'.createDirectories path = .ok t' := by
  unfold createDirectories at created ⊢
  split at created
  · cases created
  · next nul =>
    split at created
    · cases created
    · next long =>
      rw [if_neg nul, if_neg long]
      exact createDirectoriesAt_of_find? (same.1.find? (createDirectoriesAt_ok created))

end FileTree

namespace DayFiles

open FileTree

variable {s₀ s s' closed : DayFiles} {date : Date} {obstacle : Option Obstacle} {data : Bytes}
  {received : Int} {tree : FileTree} {day : OpenDay} {u u' : InUse}

/-! ## Writing to a file -/

theorem sameDirectories_flush (free : tree.get? day.place ≠ some .directory) :
    tree.SameDirectories (day.flush tree).1 := by
  unfold OpenDay.flush
  split
  · exact .refl tree
  · exact sameDirectories_insert free (by simp)

theorem sameDirectories_put (free : tree.get? day.place ≠ some .directory) (bytes : Bytes) :
    tree.SameDirectories (day.put tree bytes).1 := by
  obtain ⟨start, same, place, put⟩ : ∃ start : FileTree × OpenDay, tree.SameDirectories start.1 ∧
      start.2.place = day.place ∧ day.put tree bytes = if bufferSize ≤ bytes.length
        then (start.1.append start.2.place bytes, start.2)
        else (start.1, { start.2 with buffer := start.2.buffer ++ bytes }) := by
    by_cases full : bufferSize < day.buffer.length + bytes.length
    · refine ⟨day.flush tree, sameDirectories_flush free,
        (wrote_flush tree (isAnchor_of_free free)).place, ?_⟩
      simp only [OpenDay.put, full, if_true]
    · exact ⟨(tree, day), .refl tree, rfl, by simp only [OpenDay.put, full, if_false]⟩
  rw [put]
  split
  · exact same.trans (sameDirectories_insert (place ▸ same.free free) (by simp))
  · exact same

theorem sameDirectories_putLine (free : tree.get? day.place ≠ some .directory) (data : Bytes) :
    tree.SameDirectories (day.putLine tree data).1 := by
  have body := sameDirectories_put free (recordBody data)
  have place := (wrote_put tree (recordBody data) (isAnchor_of_free free)).place
  exact body.trans (sameDirectories_put (place ▸ body.free free) [10])

/-! ## The directories of day files -/

/-- The directory of day files was made, and the directories are the same since then. -/
def Housed (s₀ : DayFiles) (tree : FileTree) : Prop :=
  ∃ made, s₀.tree.createDirectories s₀.directory = .ok made ∧ made.SameDirectories tree

theorem Housed.trans {tree' : FileTree} (housed : s₀.Housed tree)
    (same : tree.SameDirectories tree') : s₀.Housed tree' := by
  obtain ⟨made, created, before⟩ := housed
  exact ⟨made, created, before.trans same⟩

/-- What directories there are while day files are used: nothing was done yet, or the directory of
the day files was made and the directories are the same since then. -/
structure Footing (s₀ s : DayFiles) : Prop where
  directory : s.directory = s₀.directory
  filePrefix : s.filePrefix = s₀.filePrefix
  tree : (s.tree = s₀.tree ∧ s.current = none ∧ s.compressing = []) ∨ s₀.Housed s.tree
  file : ∀ day ∈ s.current, s.tree.get? day.place ≠ some .directory

namespace Footing

theorem new (closed : s.current = none) (idle : s.compressing = []) : Footing s s where
  directory := rfl
  filePrefix := rfl
  tree := .inl ⟨rfl, closed, idle⟩
  file day hd := by rw [closed] at hd; cases hd

variable (h : Footing s₀ s)

include h

/-- The file of a day can be opened at any time if it can be opened in the beginning. -/
theorem openable_eq (date : Date) : s.openable date = s₀.openable date := by
  have path := pathFor_congr ⟨h.directory, h.filePrefix⟩ date
  unfold openable
  rw [path, h.directory]
  rcases h.tree with ⟨same, -⟩ | ⟨made, created, same⟩
  · rw [same]
  · rw [createDirectories_again created same, created]
    exact same.isOk_openForAppend _

/-- Once a file was opened, there is a directory for it. -/
theorem housed (used : s.current ≠ none ∨ s.compressing ≠ []) : s₀.Housed s.tree :=
  h.tree.resolve_left fun unused =>
    used.elim (fun c => c unused.2.1) fun c => c unused.2.2

/-- What leaves the directories as they are. -/
theorem congr (config : s'.directory = s.directory ∧ s'.filePrefix = s.filePrefix)
    (same : s.tree.SameDirectories s'.tree) (used : s.current ≠ none ∨ s.compressing ≠ [])
    (current : ∀ day ∈ s'.current, ∃ c ∈ s.current, day.place = c.place) : Footing s₀ s' := by
  refine ⟨config.1.trans h.directory, config.2.trans h.filePrefix,
    .inr ((h.housed used).trans same), fun day hd => ?_⟩
  obtain ⟨c, hc, place⟩ := current day hd
  rw [place]
  exact same.free (h.file c hc)

theorem flush : Footing s₀ s.flush := by
  cases open? : s.current with
  | none =>
    have same : s.flush = s := by simp [DayFiles.flush, open?]
    rw [same]
    exact h
  | some c =>
    have free := h.file c open?
    have flushed : s.flush =
        { s with tree := (c.flush s.tree).1, current := some (c.flush s.tree).2 } := by
      simp [DayFiles.flush, open?]
    rw [flushed]
    refine h.congr ⟨rfl, rfl⟩ (sameDirectories_flush free) (.inl (by simp [open?])) fun day hd => ?_
    cases hd
    exact ⟨c, open?, (wrote_flush s.tree (isAnchor_of_free free)).place⟩

theorem compressFile {path : String} (pending : path ∈ s.compressing) :
    Footing s₀ (s.compressFile path) :=
  h.congr ⟨rfl, rfl⟩ (sameDirectories_compress s.tree path none)
    (.inr (List.ne_nil_of_mem pending)) fun day hd => ⟨day, hd, rfl⟩

theorem makesRoom (room : MakesRoom s date closed) : Footing s₀ closed := by
  cases room with
  | idle => exact h
  | @rotated c open? =>
    exact h.congr ⟨rfl, rfl⟩ (sameDirectories_flush (h.file c open?)) (.inl (by simp [open?]))
      fun day hd => by cases hd

/-- The directory of the day files is made once at most. -/
theorem create (created : s.tree.createDirectories s.directory = .ok tree) : s₀.Housed tree := by
  rw [h.directory] at created
  rcases h.tree with ⟨same, -⟩ | ⟨made, before, same⟩
  · rw [same] at created
    exact ⟨tree, created, .refl tree⟩
  · rw [createDirectories_again before same] at created
    cases created
    exact ⟨made, before, same⟩

/-- What is done when a file cannot be opened. -/
theorem prepared (prepared : s.Prepared tree) :
    Footing s₀ { s with tree, current := none } := by
  refine ⟨h.directory, h.filePrefix, ?_, fun day hd => by cases hd⟩
  rcases prepared with rfl | created
  · exact h.tree.imp_left fun same => ⟨same.1, rfl, same.2.2⟩
  · exact .inr (h.create created)

/-- A line is written to a file where no directory is. -/
theorem putLine (housed : s₀.Housed tree) (free : tree.get? day.place ≠ some .directory)
    (data : Bytes) :
    Footing s₀ { s with
      tree := (day.putLine tree data).1, current := some (day.putLine tree data).2 } := by
  have same := sameDirectories_putLine free data
  refine ⟨h.directory, h.filePrefix, .inr (housed.trans same), fun day' hd => ?_⟩
  cases hd
  rw [(wrote_putLine tree data (isAnchor_of_free free)).place]
  exact same.free free

/-- A record is written if it joins those of the open file, or if there is no obstacle and the file
of its day could be opened in the beginning.  In any case the directories are what they were. -/
theorem write (obstacle : Option Obstacle) (data : Bytes) (received : Int) :
    Footing s₀ (s.writeDespite obstacle data received).1 ∧
      ((s.writeDespite obstacle data received).2.1 = .ok () ↔
        (∃ day ∈ s.current, (Date.ofMillis received).le day.date = true) ∨
          obstacle = none ∧ s₀.openable (Date.ofMillis received) = true) := by
  unfold writeDespite
  rcases dayFor_cases s (Date.ofMillis received) obstacle with
    ⟨day, open?, joins, found⟩ | ⟨closed, rotated, room, -, found⟩
  · rw [found]
    have housed := h.housed (.inl (by simp [open?]))
    exact ⟨h.putLine housed (h.file day open?) data, iff_of_true rfl (.inl ⟨day, open?, joins⟩)⟩
  · rw [found]
    have roomy := h.makesRoom room
    have opening := opening closed (Date.ofMillis received) obstacle
    generalize closed.openDay (Date.ofMillis received) obstacle = result at opening
    cases opening with
    | opened clear created found =>
      obtain ⟨same, free⟩ := sameDirectories_openForAppend found
      have openable := openable_of_opened created found
      rw [roomy.openable_eq] at openable
      exact ⟨roomy.putLine ((roomy.create created).trans same) free data,
        iff_of_true rfl (.inr ⟨clear, openable⟩)⟩
    | failed hindered prepared =>
      rw [roomy.openable_eq] at hindered
      exact ⟨roomy.prepared prepared,
        iff_of_false (by simp) (not_or.2 ⟨room.not_joins, hindered⟩)⟩

omit h in
theorem act {a : Act} (h : Footing s₀ u.files) (hu : u.act? a = some u') :
    Footing s₀ u'.files := by
  cases InUse.change_of_act? hu with
  | @wrote obstacle data received files notices done =>
    have wrote := (h.write obstacle data received).1
    rw [done] at wrote
    exact wrote
  | @refused obstacle data received files e notices failed =>
    have wrote := (h.write obstacle data received).1
    rw [failed] at wrote
    exact wrote
  | flushed => exact h.flush
  | compressed pending => exact h.compressFile pending

omit h in
theorem run {acts : List Act} (h : Footing s₀ u.files) (ran : u.run? acts = some u') :
    Footing s₀ u'.files :=
  InUse.preserved_of_run? (P := fun u => Footing s₀ u.files) (fun footing ha => footing.act ha) h
    ran

end Footing

end DayFiles

end FeedCapture
