import FeedCapture.Program
import FeedCapture.Proofs.Config.Precedence

/-!
# Settings that were printed

What is printed for settings comes to the same settings when it is read from a file.  Every value is
printed in a form that its field takes, sizes as numbers too, and settings that were accepted hold
no number that is too large to be read.

## Main definitions

* `CaptureSettings.Fits` — the numbers that no rule bounds from above fit their type
* `Document.same` — two documents are the same

The main statement is `Settings.stable_of_printed`.
-/

namespace FeedCapture

/-! ## Comparing documents -/

namespace Document

mutual

/-- The two documents are the same. -/
def same : Document → Document → Bool
  | .null, .null => true
  | .bool a, .bool b => a = b
  | .int m, .int n => m = n
  | .minusZero, .minusZero => true
  | .float x, .float y => x = y
  | .text s, .text t => s = t
  | .char c, .char d => c = d
  | .list xs, .list ys => sameItems xs ys
  | .map xs, .map ys => sameEntries xs ys
  | _, _ => false

/-- The items are the same, one by one. -/
def sameItems : List Document → List Document → Bool
  | [], [] => true
  | x :: xs, y :: ys => same x y && sameItems xs ys
  | _, _ => false

/-- The entries are the same, one by one. -/
def sameEntries : List (String × Document) → List (String × Document) → Bool
  | [], [] => true
  | (k, x) :: xs, (l, y) :: ys => decide (k = l) && same x y && sameEntries xs ys
  | _, _ => false

end

mutual

theorem same_iff : ∀ a b : Document, a.same b = true ↔ a = b
  | .list xs, b => by cases b <;> simp [same, sameItems_iff xs]
  | .map xs, b => by cases b <;> simp [same, sameEntries_iff xs]
  | .null, b | .bool _, b | .int _, b | .minusZero, b | .float _, b | .text _, b | .char _, b => by
    cases b <;> simp [same]

theorem sameItems_iff : ∀ xs ys : List Document, sameItems xs ys = true ↔ xs = ys
  | [], ys => by cases ys <;> simp [sameItems]
  | x :: xs, ys => by cases ys <;> simp [sameItems, same_iff x, sameItems_iff xs]

theorem sameEntries_iff : ∀ xs ys : List (String × Document), sameEntries xs ys = true ↔ xs = ys
  | [], ys => by cases ys <;> simp [sameEntries]
  | (k, x) :: xs, ys => by
    cases ys <;> simp [sameEntries, same_iff x, sameEntries_iff xs, Prod.ext_iff]

end

instance : DecidableEq Document := fun a b => decidable_of_iff _ (same_iff a b)

end Document

/-! ## Values that are read -/

namespace Config

variable {expected : String} {d : Document} {n : Nat}

/-- A number that is read fits its type. -/
theorem lt_of_word (read : word expected d = .ok n) : n < UInt64.size := by
  cases d with
  | int m =>
    simp only [word] at read
    split at read
    · cases read
    · split at read
      · cases read
      · cases read
        omega
  | minusZero =>
    cases read
    decide
  | _ => cases read

/-- A number that fits the unsigned type is neither above it nor below the signed one. -/
theorem not_outside (fits : n < UInt64.size) :
    ¬((UInt64.size : Int) ≤ n ∨ (n : Int) < Int64.minValue.toInt) := by
  have low : Int64.minValue.toInt < 0 := by decide
  omega

theorem word_int (fits : n < UInt64.size) : word expected (.int n) = .ok n := by
  rw [word, if_neg (not_outside fits), if_neg (by omega), Int.toNat_natCast]

/-- A size that is written as a number is one. -/
theorem size_int (fits : n < UInt64.size) : size (.int n) = .ok n := by
  rw [size, if_neg (not_outside fits), if_neg (by omega), Int.toNat_natCast]

theorem textsFrom_map_text (index : Nat) (xs : List String) :
    textsFrom index (xs.map .text) = .ok xs := by
  induction xs generalizing index with
  | nil => rfl
  | cons x xs ih => simp [textsFrom, text, at_, ih, Except.map]

theorem texts_list_text (xs : List String) : texts (.list (xs.map .text)) = .ok xs :=
  textsFrom_map_text 0 xs

/-! ## What every field keeps -/

variable {σ : Type} {P : σ → Prop} {fields : List (Field σ)} {s t : σ}

/-- Reading the field keeps the property. -/
def Field.Keeps (P : σ → Prop) (f : Field σ) : Prop :=
  ∀ d s t, P s → f.read d s = .ok t → P t

theorem keeps_field {α : Type} {name : String} {value : Document → Except Misfit α}
    {store : α → σ → σ} (keeps : ∀ d a s, value d = .ok a → P s → P (store a s)) :
    (field name value store).Keeps P := by
  intro d s t hs read
  simp only [field] at read
  cases taken : value d with
  | error m => simp [taken, Except.map] at read
  | ok a =>
    obtain rfl : store a s = t := by simpa [taken, Except.map] using read
    exact keeps d a s taken hs

theorem readEntries_keeps {entries : List (String × Document)} (keeps : ∀ f ∈ fields, f.Keeps P)
    (hs : P s) (read : readEntries entries fields s = .ok t) : P t := by
  induction fields generalizing s with
  | nil => exact readEntries_nil.1 read ▸ hs
  | cons f fields ih =>
    obtain ⟨u, first, read⟩ := readEntries_cons.1 read
    refine ih (fun g hg => keeps g (by simp [hg])) ?_ read
    unfold Field.Reads at first
    split at first
    · exact first ▸ hs
    · exact keeps f (by simp) _ _ _ hs first

theorem readItems_keeps {index : Nat} {items : List Document} (keeps : ∀ f ∈ fields, f.Keeps P)
    (hs : P s) (read : readItems index fields items s = .ok t) : P t := by
  induction fields generalizing index items s with
  | nil =>
    obtain rfl : s = t := by simpa [readItems] using read
    exact hs
  | cons f fields ih =>
    cases items with
    | nil =>
      obtain rfl : s = t := by simpa [readItems] using read
      exact hs
    | cons d items =>
      rw [readItems] at read
      cases first : f.read d s with
      | error m => simp [first, at_] at read
      | ok u =>
        simp only [first, at_] at read
        exact ih (fun g hg => keeps g (by simp [hg])) (keeps f (by simp) d s u hs first) read

/-- What reading each field keeps, reading a section keeps. -/
theorem readSection_keeps {expected : String} {default : σ} (keeps : ∀ f ∈ fields, f.Keeps P)
    (hs : P default) (read : readSection expected fields default d = .ok t) : P t := by
  cases d with
  | map entries =>
    exact readEntries_keeps (fun f hf => keeps f (List.mem_mergeSort.1 hf)) hs read
  | list items => exact readItems_keeps keeps hs read
  | _ => cases read

end Config

open Config

/-- The thresholds, which no rule bounds from above, fit their type. -/
structure CaptureSettings.Fits (s : CaptureSettings) : Prop where
  hiccupMin : s.hiccupMin < UInt64.size
  reestablishedAfter : s.reestablishedAfter < UInt64.size

theorem CaptureSettings.fits_of_ofDocument {d : Document} {s : CaptureSettings}
    (read : ofDocument d = .ok s) : s.Fits := by
  refine readSection_keeps ?_ ⟨by decide, by decide⟩ read
  intro f hf
  simp only [captureFields, List.mem_cons, List.not_mem_nil, or_false] at hf
  rcases hf with rfl | rfl | rfl | rfl | rfl | rfl | rfl | rfl | rfl | rfl
  case inr.inr.inr.inr.inr.inr.inr.inr.inl =>
    exact keeps_field fun _ _ _ taken fits => ⟨lt_of_word taken, fits.reestablishedAfter⟩
  case inr.inr.inr.inr.inr.inr.inr.inr.inr =>
    exact keeps_field fun _ _ _ taken fits => ⟨fits.hiccupMin, lt_of_word taken⟩
  all_goals exact keeps_field fun _ _ _ _ fits => ⟨fits.hiccupMin, fits.reestablishedAfter⟩

namespace Settings

variable {files : Files} {env : Environment} {s : Settings}

theorem fits_of_ofDocument {d : Document} (read : ofDocument d = .ok s) : s.capture.Fits := by
  refine readSection_keeps (P := fun s : Settings => s.capture.Fits) ?_ ⟨by decide, by decide⟩ read
  intro f hf
  simp only [List.mem_cons, List.not_mem_nil, or_false] at hf
  rcases hf with rfl | rfl | rfl
  · exact keeps_field fun _ _ _ taken _ => CaptureSettings.fits_of_ofDocument taken
  · exact keeps_field fun _ _ _ _ fits => fits
  · exact keeps_field fun _ _ _ _ fits => fits

/-- Settings that were loaded, from one place or the other, come from layers. -/
theorem exists_of_loadSettings {path : Option String}
    (loaded : Program.loadSettings files env path = .ok s) :
    ∃ layers, resolve layers = .ok s := by
  cases path with
  | none => exact exists_of_load loaded
  | some path => exact exists_of_loadFrom loaded

/-! ## What is printed -/

/-- The values that are printed describe the settings that they were printed for. -/
theorem describedBy_entries (obeys : s.Obeys) (fits : s.capture.Fits) :
    s.DescribedBy (Document.map s.entries).field? := by
  obtain ⟨⟨-, bus, reconnect, deadline, idle, keepalive, buffer, -⟩, ⟨-, flush⟩, -⟩ := obeys
  have small : ∀ n ≤ 3600000, n < UInt64.size := fun n h => Nat.lt_of_le_of_lt h (by decide)
  refine ⟨?capture, ?sink, ?telemetry⟩
  case capture =>
    exact
      { sources := texts_list_text _
        busCapacity := word_int (small _ (by omega))
        reconnectDelay := word_int (small _ (by omega))
        readDeadline := word_int (small _ (by omega))
        idleTimeout := word_int (small _ (by omega))
        keepalivePeriod := word_int (small _ (by omega))
        nodelay := rfl
        readBufferSize := size_int (small _ (by omega))
        hiccupMin := word_int fits.hiccupMin
        reestablishedAfter := word_int fits.reestablishedAfter }
  case sink =>
    exact
      { directory := rfl
        filePrefix := rfl
        flushInterval := word_int (small _ (by omega))
        compress := rfl }
  case telemetry => exact { logLevel := rfl }

theorem sectioned_entries (s : Settings) : Sectioned (.map s.entries) := by
  intro name known v found
  simp only [sections, List.mem_cons, List.not_mem_nil, or_false] at known
  rcases known with rfl | rfl | rfl <;> (cases found; rfl)

/-- Without variables for settings, documents alone give the fields. -/
theorem given?_of_clear (clear : ∀ v ∈ env, keys? v.1 = none) (documents : List Document)
    (name field : String) :
    given? env documents name field = documents.reverse.findSome? fun d => d.field? name field := by
  have none : ofVariables? env name field = none := by
    rw [ofVariables?, List.findSome?_eq_none_iff]
    intro v hv
    simp [clear v (List.mem_reverse.1 hv)]
  rw [given?, none, Option.none_or]

/-- **Resolving is stable under printing.**  What is printed for settings that were loaded, from the
usual places or from a file that is named, comes to the same settings when it is loaded from a file,
with no variable that gives settings.  It is assumed that the printed text means the values that it
was printed for. -/
theorem stable_of_printed {path : Option String}
    (loaded : Program.loadSettings files env path = .ok s)
    (reads : Yaml.readMap? (Yaml.print s.entries) = some s.entries) :
    ∃ text, Program.prepare files env (.config path) = .ok (.print text) ∧
      ∀ files' env' path', files' path' = some (.file text.toUTF8.data.toList) →
        (∀ v ∈ env', keys? v.1 = none) → loadFrom files' env' path' = .ok s := by
  refine ⟨Yaml.print s.entries, by simp only [Program.prepare, loaded], ?_⟩
  intro files' env' path' file clear
  obtain ⟨layers, resolved⟩ := exists_of_loadSettings loaded
  obtain ⟨read, obeys⟩ := resolve_eq_ok_iff.1 resolved
  have single : NamesFields env' := by
    intro v hv name rest keys
    cases (clear v hv).symm.trans keys
  have comes := comesTo_loadFrom single (by simp [file]) (ofFile_of_text file reads)
    (by simpa using sectioned_entries s)
  refine comes.eq_ok_iff.2 ⟨?_, obeys⟩
  have same : given? env' [.map s.entries] = (Document.map s.entries).field? := by
    funext name field
    simp [given?_of_clear clear]
  simpa [same] using describedBy_entries obeys (fits_of_ofDocument read)

/-- A file with a source that is there twice, a size with a unit and texts that look like something
else. -/
def oddText : String :=
  "capture:\n  sources: [\"a:1\", \"a:1\"]\n  read_buffer_size: 4KiB\nsink:\n" ++
    "  directory: \"true\"\n  prefix: \"0\"\n"

/-- The settings that the file comes to. -/
def odd : Settings :=
  { capture := { sources := ["a:1", "a:1"], readBufferSize := 4096 }
    sink := { directory := "true", filePrefix := "0" } }

/-- What is printed for these settings is not the text of the file, and comes to the same. -/
theorem stable_of_printed_odd :
    ∃ files, Program.loadSettings files [] (some "odd.yaml") = .ok odd ∧
      ∃ text ≠ oddText, Program.prepare files [] (.config (some "odd.yaml")) = .ok (.print text) ∧
        loadFrom (fun _ => some (.file text.toUTF8.data.toList)) [("HOME", "/root")] "printed" =
          .ok odd := by
  have read := readMap?_eq_some oddText (by decide +kernel)
  let files : Files := fun _ => some (.file oddText.toUTF8.data.toList)
  have loaded : Program.loadSettings files [] (some "odd.yaml") = .ok odd := by
    have file : files "odd.yaml" = some (.file oddText.toUTF8.data.toList) := rfl
    have single : NamesFields [] := List.forall_mem_nil _
    have comes := comesTo_loadFrom single (by simp [file]) (ofFile_of_text file read) (by
      simp only [List.mem_singleton, forall_eq]
      decide +kernel)
    refine comes.eq_ok_iff.2 ⟨?_, (violations_eq_nil_iff _).1 (by decide +kernel)⟩
    simp only [List.map_cons, List.map_nil]
    decide +kernel
  have reads : Yaml.readMap? (Yaml.print odd.entries) = some odd.entries := by
    -- Decoding a long text takes the kernel much longer than reading it.
    rw [Yaml.print, Yaml.readMap?, Yaml.Node.ofText?, String.toList_ofList]
    decide +kernel
  obtain ⟨text, printed, stable⟩ := stable_of_printed loaded reads
  have other : Yaml.print odd.entries ≠ oddText := by decide +kernel
  have same : Yaml.print odd.entries = text := by
    simpa [Program.prepare, loaded] using printed
  refine ⟨files, loaded, text, same ▸ other, printed, stable _ _ _ rfl ?_⟩
  simp only [List.mem_singleton, forall_eq]
  decide +kernel

end Settings

end FeedCapture
