import FeedCapture.Proofs.Files.Days

/-!
# Day files that are used again

Day files are used and closed, and then used again from where they are, any number of times.  What
is written to a day is kept from one time to the next, until the file of the day is compressed: its
archive is made anew then, and what an earlier archive held is lost.

## Main definitions

* `DayFiles.lives?` — what is left after day files were used and closed several times
* `DayFiles.archives` — the file of a day is compressed by the end of a use
* `DayFiles.Shelf` — what the archive and the file of a day hold

The main statements say what a day holds after any number of uses (`shelf_of_lives`), and that
everything is kept when the file of the day is compressed at most once (`holds_of_lives`).
-/

namespace FeedCapture.DayFiles

open FileTree

/-- What is left after day files were used and closed several times; none if an act is not possible
or an operation fails. -/
def lives? (s : DayFiles) : List (List Act) → Option DayFiles
  | [] => some s
  | acts :: rest => (InUse.run? { files := s } acts).bind fun u =>
      if u.close.refused = [] ∧ u.close.left = [] then u.close.files.lives? rest else none

/-- The file of a day is compressed by the end of a use: the day was written to, and it is not the
last. -/
def archives (compress : Bool) (date : Date) (acts : List Act) : Bool :=
  let records := acts.filterMap Act.record?
  compress && (byDay records).any (fun f => f.1 = date) &&
    Date.latest? (datesOf records) ≠ some date

/-- What the archive and the file of a day hold. -/
structure Shelf where
  archive : Bytes
  file : Bytes
deriving DecidableEq, Repr

/-- The lines that a use adds to a day. -/
def linesIn (date : Date) (acts : List Act) : Bytes :=
  linesOf date (byDay (acts.filterMap Act.record?))

/-- What a use leaves of a day: its lines come to the end of the file, and when the file is
compressed, it takes the place of the archive. -/
def Shelf.after (compress : Bool) (date : Date) (shelf : Shelf) (acts : List Act) : Shelf :=
  if archives compress date acts then ⟨shelf.file ++ linesIn date acts, []⟩
  else ⟨shelf.archive, shelf.file ++ linesIn date acts⟩

/-- What the archive and the file of a day hold. -/
def shelf (s : DayFiles) (date : Date) : Shelf :=
  ⟨s.archived date, s.tree.contentOf (s.pathFor date)⟩

variable {s₀ s : DayFiles}

/-- What one use leaves of a day. -/
theorem shelf_of_run {acts : List Act} {u : InUse} (closed : s₀.current = none)
    (idle : s₀.compressing = []) (ran : InUse.run? { files := s₀ } acts = some u)
    (clean : u.close.Clean) (date : Date) :
    u.close.files.shelf date = (s₀.shelf date).after s₀.compress date acts := by
  obtain ⟨standing, settled, none⟩ := InUse.standing_of_run closed idle ran clean
  have landed := landed_of_none none
  have paths : ∀ archived, u.close.files.filePath archived date = s₀.filePath archived date := by
    intro archived
    cases archived <;> simp [filePath, archiveFor, standing.pathFor_eq]
  have kept : u.close.files.shelf date =
      ⟨u.close.files.landed.contentOf (s₀.filePath true date),
        u.close.files.landed.contentOf (s₀.filePath false date)⟩ := by
    rw [landed, ← paths, ← paths]
    rfl
  rw [kept]
  by_cases filed : ∃ f ∈ byDay (acts.filterMap Act.record?), f.1 = date
  · obtain ⟨f, hf, rfl⟩ := filed
    have waits : archives s₀.compress f.1 acts = true ↔ ¬ Waits s₀ u.close.files.compressing
        (Date.latest? (datesOf (acts.filterMap Act.record?))) f.1 := by
      have any : (byDay (acts.filterMap Act.record?)).any (fun g => g.1 = f.1) = true :=
        List.any_eq_true.2 ⟨f, hf, by simp⟩
      simp [archives, Waits, any, settled]
    unfold Shelf.after
    split
    · next moved =>
      obtain ⟨file, archive⟩ := standing.moved f hf (waits.1 moved)
      exact congrArg₂ Shelf.mk (contentOf_of_fileOf? archive) (contentOf_of_fileOf? file)
    · next stays =>
      have wait := not_not.1 fun c => stays (waits.2 c)
      have archive := contentOf_of_fileOf? (standing.archive_eq wait)
      exact congrArg₂ Shelf.mk (archive.trans (contentOf_of_fileOf? rfl).symm)
        (contentOf_of_fileOf? (standing.plain f hf wait))
  · have other : ∀ f ∈ byDay (acts.filterMap Act.record?), f.1 ≠ date := fun f hf same =>
      filed ⟨f, hf, same⟩
    have stays : archives s₀.compress date acts = false := by
      have any : (byDay (acts.filterMap Act.record?)).any (fun f => f.1 = date) = false :=
        List.any_eq_false.2 fun f hf => by simpa using other f hf
      simp [archives, any]
    have same : ∀ archived, u.close.files.landed.contentOf (s₀.filePath archived date) =
        s₀.tree.contentOf (s₀.filePath archived date) := fun archived =>
      (contentOf_of_fileOf? (standing.unfiled other archived)).trans (contentOf_of_fileOf? rfl).symm
    rw [same, same, Shelf.after, stays, linesIn, linesOf_eq_nil other]
    simp [shelf, DayFiles.archived, filePath]

/-- What any number of uses leaves of a day. -/
theorem shelf_of_lives {lifetimes : List (List Act)} (closed : s₀.current = none)
    (idle : s₀.compressing = []) (lived : s₀.lives? lifetimes = some s) (date : Date) :
    s.shelf date = lifetimes.foldl (Shelf.after s₀.compress date) (s₀.shelf date) := by
  induction lifetimes generalizing s₀ with
  | nil =>
    cases lived
    rfl
  | cons acts rest ih =>
    obtain ⟨u, ran, lived⟩ := Option.bind_eq_some_iff.1 lived
    split at lived
    · next clean =>
      obtain ⟨standing, settled, none⟩ := InUse.standing_of_run closed idle ran clean
      have later := ih none settled lived
      rw [standing.compress, shelf_of_run closed idle ran clean] at later
      exact later
    · cases lived

/-- The lines of a day are all kept when its file is compressed at most once, and not at all when
there is an archive already. -/
theorem append_foldl_after {compress : Bool} {date : Date} (lifetimes : List (List Act))
    (shelf : Shelf)
    (once : lifetimes.countP (archives compress date) ≤ if shelf.archive = [] then 1 else 0) :
    (lifetimes.foldl (Shelf.after compress date) shelf).archive ++
        (lifetimes.foldl (Shelf.after compress date) shelf).file =
      shelf.archive ++ shelf.file ++ lifetimes.flatMap (linesIn date) := by
  induction lifetimes generalizing shelf with
  | nil => simp
  | cons acts rest ih =>
    rw [List.countP_cons] at once
    rw [List.foldl_cons, List.flatMap_cons]
    cases moved : archives compress date acts with
    | true =>
      rw [moved, if_pos rfl] at once
      have empty : shelf.archive = [] := by
        by_contra held
        rw [if_neg held] at once
        omega
      rw [if_pos empty] at once
      have after : shelf.after compress date acts = ⟨shelf.file ++ linesIn date acts, []⟩ := by
        simp [Shelf.after, moved]
      rw [after, ih _ (by omega), empty]
      simp
    | false =>
      rw [moved, if_neg (by decide), Nat.add_zero] at once
      have after : shelf.after compress date acts =
          ⟨shelf.archive, shelf.file ++ linesIn date acts⟩ := by
        simp [Shelf.after, moved]
      rw [after, ih ⟨shelf.archive, shelf.file ++ linesIn date acts⟩ once]
      simp

/-- A day keeps what it held and gets the lines of all its records, however often the day files are
used, as long as its file is compressed at most once, and not at all when the day has an archive
already. -/
theorem holds_of_lives {lifetimes : List (List Act)} (date : Date) (closed : s₀.current = none)
    (idle : s₀.compressing = []) (lived : s₀.lives? lifetimes = some s)
    (once : lifetimes.countP (archives s₀.compress date) ≤
      if s₀.archived date = [] then 1 else 0) :
    s.holds date = s₀.holds date ++ lifetimes.flatMap (linesIn date) := by
  have shelf := shelf_of_lives closed idle lived date
  have kept := append_foldl_after lifetimes (s₀.shelf date) once
  rw [← shelf] at kept
  exact kept

/-- A first day, used twice, and then a second one. -/
def continued : List (List Act) :=
  [[.write none [65, 10] 1709251200000],
    [.write none [66, 10] 1709251200000, .write none [67, 10] 1709337600000]]

theorem holds_of_lives_continued :
    ∃ s, lives? { directory := "out", filePrefix := "feed" } continued = some s ∧
      continued.countP (archives true ⟨2024, 3, 1⟩) = 1 ∧
      s.holds ⟨2024, 3, 1⟩ = [65, 10, 66, 10] := by
  have lived : (lives? { directory := "out", filePrefix := "feed" } continued).isSome = true := by
    decide +kernel
  obtain ⟨s, lived⟩ := Option.isSome_iff_exists.1 lived
  have once : continued.countP (archives true ⟨2024, 3, 1⟩) = 1 := by decide +kernel
  have empty : archived { directory := "out", filePrefix := "feed" } ⟨2024, 3, 1⟩ = [] :=
    contentOf_empty _
  have holds := holds_of_lives ⟨2024, 3, 1⟩ rfl rfl lived (by rw [once, empty]; decide)
  refine ⟨s, lived, once, holds.trans ?_⟩
  decide +kernel

/-- Both days twice: the file of the first day is compressed each time. -/
def repeated : List (List Act) :=
  [[.write none [65, 10] 1709251200000, .write none [66, 10] 1709337600000],
    [.write none [67, 10] 1709251200000, .write none [68, 10] 1709337600000]]

/-- A record that was written is lost when the file of its day is compressed a second time. -/
theorem lost_of_lives_repeated :
    ∃ s, lives? { directory := "out", filePrefix := "feed" } repeated = some s ∧
      linesIn ⟨2024, 3, 1⟩
        [.write none [65, 10] 1709251200000, .write none [66, 10] 1709337600000] = [65, 10] ∧
      s.holds ⟨2024, 3, 1⟩ = [67, 10] := by
  have lived : (lives? { directory := "out", filePrefix := "feed" } repeated).map
      (fun s => s.holds ⟨2024, 3, 1⟩) = some [67, 10] := by decide +kernel
  obtain ⟨s, lived, holds⟩ := Option.map_eq_some_iff.1 lived
  exact ⟨s, lived, by decide +kernel, holds⟩

end FeedCapture.DayFiles
