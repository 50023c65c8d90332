import FeedCapture.Config.Settings
import FeedCapture.Proofs.Files.Directories
import FeedCapture.Proofs.Files.HandedOver

/-!
# Days that are apart

With a file prefix that keeps its rule, the file of a day and its archive lie directly in the
directory of the day files, each under a name of its own.  So what is done with the file of one day
while day files are used never concerns the file or the archive of another.

## Main definitions

* `FileTree.components` — what paths are compared by
* `DayFiles.SameFiles` — the file and the archive of a day are the same in two file trees
* `DayFiles.Assigned` — what is open, and what was handed over, are the files of days

The main statements are `FileTree.names_join`, `Assigned.run` and `apart_of_accepted`.
-/

namespace FeedCapture

namespace FileTree

variable {t : FileTree} {path directory name : String} {place : Place}

/-! ## A name in a directory -/

/-- The components of a path, by which paths are compared: its names without the dots, which lead
nowhere; but a dot in the beginning is kept. -/
def components (path : String) : List String :=
  match names path with
  | [] => []
  | first :: rest => first :: rest.filter fun name => name ≠ "."

/-- The texts between the slashes of a path, without the empty ones. -/
def segments (path : List Char) : List (List Char) :=
  (path.splitOn '/').filter fun segment => !segment.isEmpty

theorem names_eq (path : String) : names path =
    (if path.toList.head? = some '/' then ["/"] else []) ++
      (segments path.toList).map String.ofList := by
  unfold names segments
  split <;> rfl

/-- What follows a slash, and has none itself, is one more segment. -/
theorem segments_append_slash {name : List Char} (slash : '/' ∉ name) (nonempty : name ≠ [])
    (stem : List Char) : segments (stem ++ '/' :: name) = segments stem ++ [name] := by
  unfold segments
  rw [List.splitOn_append_cons_self, List.splitOn_eq_singleton slash, List.filter_append]
  simp [nonempty]

/-- A slash at the end makes no segment. -/
theorem segments_slash (stem : List Char) : segments (stem ++ ['/']) = segments stem := by
  unfold segments
  rw [List.splitOn_append_cons_self]
  simp

/-- A name below a directory follows a slash, which the directory has at its end already or does
not have. -/
theorem exists_toList_join (relative : name.toList.head? ≠ some '/') (below : directory ≠ "") :
    ∃ stem, (join directory name).toList = stem ++ '/' :: name.toList ∧
      (directory.toList = stem ++ ['/'] ∨ directory.toList = stem) := by
  by_cases closed : directory.toList.getLast? = some '/'
  · obtain ⟨stem, ended⟩ := List.getLast?_eq_some_iff.1 closed
    refine ⟨stem, ?_, .inl ended⟩
    simp [join, relative, below, ended]
  · refine ⟨directory.toList, ?_, .inr rfl⟩
    simp [join, relative, below, closed]

/-- The names in a path below a directory are those of the directory and one more. -/
theorem names_join (directory : String) (slash : '/' ∉ name.toList) (nonempty : name ≠ "") :
    names (join directory name) = names directory ++ [name] := by
  have chars : name.toList ≠ [] := by simpa using nonempty
  have relative : name.toList.head? ≠ some '/' := fun root => slash (List.mem_of_mem_head? root)
  by_cases here : directory = ""
  · subst here
    have bare : join "" name = name := by simp [join]
    have segment : segments name.toList = [name.toList] := by
      simp [segments, List.splitOn_eq_singleton slash, chars]
    rw [bare, names_eq, segment]
    simp [names, relative]
  · obtain ⟨stem, joined, ended⟩ := exists_toList_join relative here
    have some : directory.toList ≠ [] := by simpa using here
    rw [names_eq, names_eq directory, joined, segments_append_slash slash chars]
    rcases ended with ended | ended
    · have head : (stem ++ '/' :: name.toList).head? = (stem ++ ['/']).head? := by
        cases stem <;> rfl
      rw [ended, segments_slash, head]
      simp
    · subst ended
      rw [List.head?_append_of_ne_nil _ some]
      simp

/-- The components of a path below a directory are those of the directory and one more. -/
theorem components_join (directory : String) (slash : '/' ∉ name.toList) (nonempty : name ≠ "")
    (dot : name ≠ ".") :
    components (join directory name) = components directory ++ [name] := by
  unfold components
  rw [names_join directory slash nonempty]
  cases names directory with
  | nil => rfl
  | cons first rest => simp [List.filter_append, dot]

/-- A file that can be opened below a directory is right below the place of the directory. -/
theorem exists_walk_of_target {last tail : String} (slash : '/' ∉ (last ++ tail).toList)
    (long : 2 < tail.length) (found : t.target (join directory (last ++ tail)) = .ok place) :
    ∃ above, t.walk (names directory) = .ok above ∧
      place = above ++ [last ++ tail] := by
  have nonempty : last ++ tail ≠ "" := by
    intro empty
    have short : (last ++ tail).length = 0 := by simp [empty]
    rw [String.length_append] at short
    omega
  have walked := (target_ok found).1
  rw [names_join directory slash nonempty] at walked
  cases parent : t.walk (names directory) with
  | error e =>
    have lost : t.walk (names directory ++ [last ++ tail]) = .error e := by
      unfold walk at parent ⊢
      rw [List.foldlM_append, parent]
      rfl
    rw [lost] at walked
    cases walked
  | ok above =>
    rw [walk_concat parent] at walked
    have after := placeAfter_of_enter walked
    rw [placeAfter_append above last long] at after
    exact ⟨above, rfl, after.symm⟩

end FileTree

namespace DayFiles

open FileTree

variable {s₀ s s' closed : DayFiles} {u u' : InUse} {date other : Date} {place : Place}
  {day : OpenDay}

/-! ## Names of day files -/

theorem fileName_eq (filePrefix : String) (date : Date) :
    fileName filePrefix date = filePrefix ++ nameEnd false date := by
  simp [fileName, nameEnd, String.append_assoc]

theorem filePath_eq_join (s : DayFiles) (archived : Bool) (date : Date) :
    s.filePath archived date = join s.directory (s.filePrefix ++ nameEnd archived date) := by
  rw [filePath_eq, join_append _ _ (notMem_nameEnd archived date)]

/-- A file prefix that keeps its rule has no slash. -/
theorem notMem_of_isFilePrefix {text : String}
    (accepted : SinkSettings.isFilePrefix text.toList = true) : '/' ∉ text.toList := by
  intro slash
  obtain ⟨-, ordinary⟩ := SinkSettings.isFilePrefix_iff.1 accepted
  exact absurd (ordinary '/' slash) (by decide)

/-- The name of a day's file, or of its archive, is an ordinary name. -/
theorem ordinary_name (filePrefix : String) (archived : Bool) (date : Date) :
    filePrefix ++ nameEnd archived date ≠ "" ∧ filePrefix ++ nameEnd archived date ≠ "." ∧
      filePrefix ++ nameEnd archived date ≠ ".." := by
  have long := length_nameEnd archived date
  have other : ∀ name : String, name.length ≤ 2 → filePrefix ++ nameEnd archived date ≠ name := by
    intro name short same
    rw [← same, String.length_append] at short
    omega
  exact ⟨other "" (by decide), other "." (by decide), other ".." (by decide)⟩

section Plain

variable (plain : '/' ∉ s.filePrefix.toList)

include plain

theorem notMem_name (archived : Bool) (date : Date) :
    '/' ∉ (s.filePrefix ++ nameEnd archived date).toList := by
  rw [String.toList_append, List.mem_append, not_or]
  exact ⟨plain, notMem_nameEnd archived date⟩

/-- The file of a day and its archive lie directly in the directory of the day files. -/
theorem components_filePath (archived : Bool) (date : Date) :
    components (s.filePath archived date) =
      components s.directory ++ [s.filePrefix ++ nameEnd archived date] := by
  obtain ⟨nonempty, dot, -⟩ := ordinary_name s.filePrefix archived date
  rw [filePath_eq_join]
  exact components_join s.directory (notMem_name plain archived date) nonempty dot

/-- A path is that of one day, and of its file or its archive, however it is written. -/
theorem eq_of_components (archived archived' : Bool)
    (same : components (s.filePath archived date) = components (s.filePath archived' other)) :
    archived = archived' ∧ date = other := by
  rw [components_filePath plain, components_filePath plain] at same
  have name := List.append_cancel_left same
  rw [List.cons.injEq] at name
  exact nameEnd_injective ((String.append_right_inj _).1 name.1)

end Plain

/-! ## Other days -/

/-- The file of a day and its archive are the same in two file trees. -/
def SameFiles (s : DayFiles) (t t' : FileTree) (date : Date) : Prop :=
  ∀ archived, t'.fileOf? (s.filePath archived date) = t.fileOf? (s.filePath archived date)

theorem SameFiles.trans {t mid t' : FileTree} (first : s.SameFiles t mid date)
    (second : s.SameFiles mid t' date) : s.SameFiles t t' date :=
  fun archived => (second archived).trans (first archived)

/-- What changes the file of one day alone concerns no other day. -/
theorem sameFiles_of_others {t t' : FileTree} (placed : placeOf (s.pathFor date) = place)
    (others : ∀ p, p ≠ place → t'.fileAt? p = t.fileAt? p) (hne : other ≠ date) :
    s.SameFiles t t' other := by
  intro archived
  refine fileOf?_congr fun p found => others p ?_
  rintro rfl
  exact placeOf_ne false archived placed (.inr hne) found

/-- Compressing the file of one day, up to any step, concerns no other day. -/
theorem sameFiles_compress (s : DayFiles) (t : FileTree) (interruption : Option Nat)
    (hne : other ≠ date) :
    s.SameFiles t (t.compress (s.pathFor date) interruption).1 other := by
  intro archived
  refine fileOf?_congr fun p found => fileAt?_compress_of_ne ?_ ?_ interruption
  · exact placeOf_ne archived false found (.inr hne.symm)
  · exact placeOf_ne archived true found (.inr hne.symm)

/-! ## While day files are used -/

/-- What is open, and what was handed over to be compressed, are the files of days. -/
structure Assigned (s₀ s : DayFiles) : Prop where
  directory : s.directory = s₀.directory
  filePrefix : s.filePrefix = s₀.filePrefix
  placed : ∀ day ∈ s.current, day.path = s₀.pathFor day.date ∧ placeOf day.path = day.place
  handed : ∀ path ∈ s.compressing, ∃ date, path = s₀.pathFor date

namespace Assigned

theorem new (closed : s.current = none) (idle : s.compressing = []) : Assigned s s where
  directory := rfl
  filePrefix := rfl
  placed day hd := by rw [closed] at hd; cases hd
  handed path hp := by rw [idle] at hp; cases hp

variable (h : Assigned s₀ s)

include h

theorem pathFor_eq (date : Date) : s.pathFor date = s₀.pathFor date :=
  pathFor_congr ⟨h.directory, h.filePrefix⟩ date

theorem placeOf_eq (open? : day ∈ s.current) :
    placeOf (s₀.pathFor day.date) = day.place := by
  obtain ⟨path, placed⟩ := h.placed day open?
  rw [← path]
  exact placed

theorem isAnchor_current : ∀ day ∈ s.current, isAnchor day.place = false := fun _ open? =>
  s₀.isAnchor_of_placeOf false (h.placeOf_eq open?)

/-- Writing the buffer of the open file concerns no other day. -/
theorem sameFiles_flush (open? : day ∈ s.current) (hne : other ≠ day.date) :
    s₀.SameFiles s.tree (day.flush s.tree).1 other :=
  sameFiles_of_others (h.placeOf_eq open?)
    (fun _ elsewhere => fileAt?_flush_of_ne day s.tree elsewhere) hne

theorem flush : Assigned s₀ s.flush := by
  refine ⟨(config_flush s).1.trans h.directory, (config_flush s).2.1.trans h.filePrefix,
    fun day hd => ?_, by rw [compressing_flush]; exact h.handed⟩
  obtain ⟨c, open?, date, path, place⟩ := current_flush s day hd
  rw [date, path, place]
  exact h.placed c open?

/-- Closing the open file of an earlier day concerns no day but that. -/
theorem sameFiles_room (room : MakesRoom s date closed)
    (elsewhere : ∀ day ∈ s.current, other ≠ day.date) : s₀.SameFiles s.tree closed.tree other := by
  cases room with
  | idle => exact fun _ => rfl
  | rotated open? => exact h.sameFiles_flush open? (elsewhere _ open?)

theorem handed_of_room (room : MakesRoom s date closed) :
    ∀ path ∈ closed.compressing, ∃ d, path = s₀.pathFor d := by
  intro path mem
  rcases room.mem_compressing mem with mem | ⟨c, open?, -, rfl⟩
  · exact h.handed path mem
  · exact ⟨c.date, (h.placed c open?).1⟩

/-- Writing a record leaves it known which files are open and handed over. -/
theorem write (config : s'.directory = s.directory ∧ s'.filePrefix = s.filePrefix)
    (outcome : Outcome s date s') : Assigned s₀ s' := by
  have directory := config.1.trans h.directory
  have filePrefix := config.2.trans h.filePrefix
  cases outcome with
  | @joined c day open? now same pending =>
    refine ⟨directory, filePrefix, fun d hd => ?_, pending ▸ h.handed⟩
    rw [now] at hd
    cases hd
    rw [same.1, same.2.1, same.2.2]
    exact h.placed c open?
  | @opened closed day room now own placed pending =>
    refine ⟨directory, filePrefix, fun d hd => ?_, pending ▸ h.handed_of_room room⟩
    rw [now] at hd
    cases hd
    rw [← h.pathFor_eq]
    exact placed
  | refused room now pending =>
    refine ⟨directory, filePrefix, fun d hd => ?_, pending ▸ h.handed_of_room room⟩
    rw [now] at hd
    cases hd

/-- Writing a record concerns no day but its own and that of the open file. -/
theorem sameFiles_write (outcome : Outcome s date s') (own : other ≠ date)
    (elsewhere : ∀ day ∈ s.current, other ≠ day.date) : s₀.SameFiles s.tree s'.tree other := by
  cases outcome with
  | joined open? _ _ _ others =>
    exact sameFiles_of_others (h.placeOf_eq open?) others (elsewhere _ open?)
  | @opened closed day room _ same placed _ others =>
    have found : placeOf (s₀.pathFor date) = day.place := by
      rw [← same, ← h.pathFor_eq, ← placed.1]
      exact placed.2
    exact (h.sameFiles_room room elsewhere).trans (sameFiles_of_others found others own)
  | refused room _ _ others =>
    refine (h.sameFiles_room room elsewhere).trans fun archived => ?_
    exact fileOf?_congr fun place _ => others place

omit h in
theorem act {a : Act} (h : Assigned s₀ u.files) (hu : u.act? a = some u') :
    Assigned s₀ u'.files := by
  cases InUse.change_of_act? hu with
  | wrote done =>
    obtain ⟨directory, filePrefix, outcome⟩ := outcome_of_ok h.isAnchor_current done
    exact h.write ⟨directory, filePrefix⟩ outcome
  | refused failed =>
    obtain ⟨directory, filePrefix, outcome⟩ := outcome_of_error failed
    exact h.write ⟨directory, filePrefix⟩ outcome
  | flushed => exact h.flush
  | compressed pending =>
    exact ⟨h.directory, h.filePrefix, h.placed,
      fun path mem => h.handed path (List.mem_of_mem_erase mem)⟩

omit h in
theorem run {acts : List Act} (h : Assigned s₀ u.files) (ran : u.run? acts = some u') :
    Assigned s₀ u'.files :=
  InUse.preserved_of_run? (P := fun u => Assigned s₀ u.files) (fun assigned ha => assigned.act ha)
    h ran

end Assigned

/-- **The files of the days are apart.**  With a file prefix that is accepted, different days have
different paths; the name of a day's file has no slash and leads nowhere else, so the file lies
directly in the directory, also where it is opened; and no path of a day's file is that of an
archive.  So while day files are used, closing the open file for a later day, compressing a file up
to any step, and writing a record concern no file and no archive of any other day. -/
theorem apart_of_accepted (accepted : SinkSettings.isFilePrefix s.filePrefix.toList = true) :
    (∀ d e, components (s.pathFor d) = components (s.pathFor e) → d = e) ∧
    (∀ d, '/' ∉ (fileName s.filePrefix d).toList ∧
      fileName s.filePrefix d ≠ "." ∧ fileName s.filePrefix d ≠ ".." ∧
      components (s.pathFor d) = components s.directory ++ [fileName s.filePrefix d] ∧
      ∀ (t : FileTree) place, t.target (s.pathFor d) = .ok place →
        ∃ above, t.walk (names s.directory) = .ok above ∧
          place = above ++ [fileName s.filePrefix d]) ∧
    (∀ d e, components (s.pathFor d) ≠ components (s.archiveFor e)) ∧
    ∀ acts u, s.current = none → s.compressing = [] → InUse.run? { files := s } acts = some u →
      (∀ day ∈ u.files.current, day.path = s.pathFor day.date ∧
        ∀ e, e ≠ day.date → s.SameFiles u.files.tree (u.files.rotate day).1.tree e) ∧
      (∀ path ∈ u.files.compressing, ∃ d, path = s.pathFor d ∧ ∀ e, e ≠ d → ∀ interruption,
        s.SameFiles u.files.tree (u.files.tree.compress path interruption).1 e) ∧
      ∀ obstacle data received e, e ≠ Date.ofMillis received →
        (∀ day ∈ u.files.current, e ≠ day.date) →
        s.SameFiles u.files.tree (u.files.writeDespite obstacle data received).1.tree e := by
  have plain := notMem_of_isFilePrefix accepted
  refine ⟨fun d e same => ?_, fun d => ?_, fun d e same => ?_, fun acts u closed idle ran => ?_⟩
  · exact (eq_of_components plain false false same).2
  · obtain ⟨-, dot, dots⟩ := ordinary_name s.filePrefix false d
    have slash := notMem_name plain false d
    rw [fileName_eq]
    refine ⟨slash, dot, dots, components_filePath plain false d, fun t place found => ?_⟩
    refine exists_walk_of_target slash (length_nameEnd false d) ?_
    rw [← filePath_eq_join]
    exact found
  · cases (eq_of_components plain false true same).1
  · have assigned : Assigned s u.files := (Assigned.new closed idle).run ran
    refine ⟨fun day open? => ⟨(assigned.placed day open?).1, fun e hne => ?_⟩,
      fun path pending => ?_, fun obstacle data received e own elsewhere => ?_⟩
    · exact assigned.sameFiles_flush open? hne
    · obtain ⟨d, rfl⟩ := assigned.handed path pending
      exact ⟨d, rfl, fun e hne interruption => sameFiles_compress s _ interruption hne⟩
    · generalize wrote : u.files.writeDespite obstacle data received = next
      obtain ⟨files, result, notices⟩ := next
      cases result with
      | ok =>
        obtain ⟨-, -, outcome⟩ := outcome_of_ok assigned.isAnchor_current wrote
        exact assigned.sameFiles_write outcome own elsewhere
      | error e =>
        obtain ⟨-, -, outcome⟩ := outcome_of_error wrote
        exact assigned.sameFiles_write outcome own elsewhere

/-- Day files with a prefix that looks like the name of a day's file. -/
def lookalike : DayFiles where
  directory := "./out/"
  filePrefix := "feed-2024.log"

/-- A record of one day, and one of a day with a year of five digits. -/
def farApart : List Act :=
  [.write none [65, 10] 1709251200000, .write none [66, 10] 253402300800000, .flush]

/-- The first file may be compressed up to any step while the second is open, and the second may be
closed, and the other one stays as it is. -/
theorem apart_of_accepted_lookalike :
    SinkSettings.isFilePrefix lookalike.filePrefix.toList = true ∧
      components (lookalike.pathFor ⟨10000, 1, 1⟩) ≠
        components (lookalike.archiveFor ⟨2024, 3, 1⟩) ∧
      ∃ u day, InUse.run? { files := lookalike } farApart = some u ∧ u.files.current = some day ∧
        u.files.compressing = ["./out/feed-2024.log-2024-03-01.log"] ∧
        (u.files.rotate day).1.tree.fileOf? (lookalike.pathFor ⟨2024, 3, 1⟩) =
          some (.file [65, 10]) ∧
        ∀ interruption, (u.files.tree.compress "./out/feed-2024.log-2024-03-01.log"
          interruption).1.fileOf? (lookalike.pathFor ⟨10000, 1, 1⟩) = some (.file [66, 10]) := by
  have accepted : SinkSettings.isFilePrefix lookalike.filePrefix.toList = true := by decide
  have whole : (InUse.run? { files := lookalike } farApart).map (fun u =>
      (u.files.current.map (·.date), u.files.compressing,
        u.files.tree.fileOf? (lookalike.pathFor ⟨2024, 3, 1⟩),
        u.files.tree.fileOf? (lookalike.pathFor ⟨10000, 1, 1⟩))) =
      some (some ⟨10000, 1, 1⟩, ["./out/feed-2024.log-2024-03-01.log"], some (.file [65, 10]),
        some (.file [66, 10])) := by decide +kernel
  have first : "./out/feed-2024.log-2024-03-01.log" = lookalike.pathFor ⟨2024, 3, 1⟩ := by
    decide +kernel
  obtain ⟨u, ran, ended⟩ := Option.map_eq_some_iff.1 whole
  simp only [Prod.mk.injEq] at ended
  obtain ⟨current, pending, older, newer⟩ := ended
  obtain ⟨day, open?, date⟩ := Option.map_eq_some_iff.1 current
  obtain ⟨-, -, archive, used⟩ := apart_of_accepted accepted
  obtain ⟨closing, compressing, -⟩ := used farApart u rfl rfl ran
  refine ⟨accepted, archive _ _, u, day, ran, open?, pending, ?_, fun interruption => ?_⟩
  · obtain ⟨-, others⟩ := closing day open?
    exact (others ⟨2024, 3, 1⟩ (by rw [date]; decide) false).trans older
  · obtain ⟨d, path, others⟩ := compressing _ (by rw [pending]; exact List.mem_singleton.2 rfl)
    have same : (⟨2024, 3, 1⟩ : Date) = d := lookalike.pathFor_injective (first.symm.trans path)
    subst same
    exact (others ⟨10000, 1, 1⟩ (by decide) interruption false).trans newer

end DayFiles

end FeedCapture
