import FeedCapture.Config.Reading
import FeedCapture.Proofs.Config.Merging
import Mathlib.Tactic.MkIffOfInductiveProp

/-!
# What settings are read from

Reading a section comes to settings exactly when every value that is given for one of its fields is
of the right form.  Each field is then what is given for it, or its default value; the other fields
have no part in it, and neither has the order in which they are read.

## Main definitions

* `Config.Takes` — the value of one field, by what is given for it
* `Settings.DescribedBy`, with one such structure for each section — the values of all fields

The main statement says what settings are read from a document whose sections are maps
(`Settings.ofDocument_eq_ok_iff`).
-/

namespace FeedCapture

/-! ## One field -/

namespace Config

variable {α σ : Type} {value : Document → Except Misfit α}

/-- The value of a field: what is given for it, or else the default value. -/
def Takes (value : Document → Except Misfit α) (default : α) : Option Document → α → Prop
  | none, a => a = default
  | some d, a => value d = .ok a

theorem takes_iff {default a : α} {o : Option Document} :
    Takes value default o a ↔ (o.elim (.ok default) value).toOption = some a := by
  cases o with
  | none => simp [Takes, Except.toOption, eq_comm]
  | some d => cases read : value d <;> simp [Takes, Except.toOption, read]

instance [DecidableEq α] (default a : α) (o : Option Document) :
    Decidable (Takes value default o a) :=
  decidable_of_iff _ takes_iff.symm

/-- No map is a value of the field. -/
def RefusesMaps (value : Document → Except Misfit α) : Prop :=
  ∀ entries a, value (.map entries) ≠ .ok a

/-- One map for another makes no difference to a field that refuses both. -/
theorem Takes.of_alike {default a : α} {x y : Option Document} (h : Takes value default x a)
    (refuses : RefusesMaps value) (alike : Document.Alike x y) : Takes value default y a := by
  cases alike with
  | same => exact h
  | maps xs ys => exact absurd h (refuses xs a)

theorem refusesMaps_text (expected : String) : RefusesMaps (text expected) := by
  intro entries a read
  cases read

theorem refusesMaps_texts : RefusesMaps texts := by
  intro entries a read
  cases read

theorem refusesMaps_word (expected : String) : RefusesMaps (word expected) := by
  intro entries a read
  cases read

theorem refusesMaps_flag : RefusesMaps flag := by
  intro entries a read
  cases read

theorem refusesMaps_size : RefusesMaps size := by
  intro entries a read
  cases read

/-! ## Several fields -/

variable {entries : List (String × Document)} {s t : σ}

/-- Reading a field turns one state of a section into another. -/
def Field.Reads (entries : List (String × Document)) (f : Field σ) (s t : σ) : Prop :=
  match Document.lookup entries f.name with
  | none => t = s
  | some d => f.read d s = .ok t

theorem readEntries_cons {f : Field σ} {fields : List (Field σ)} :
    readEntries entries (f :: fields) s = .ok t ↔
      ∃ u, f.Reads entries s u ∧ readEntries entries fields u = .ok t := by
  rw [readEntries]
  simp only [Field.Reads]
  cases Document.lookup entries f.name with
  | none => simp
  | some d => cases read : f.read d s <;> simp [at_, read]

@[simp] theorem readEntries_nil : readEntries entries [] s = .ok t ↔ t = s := by
  simp [readEntries, eq_comm]

/-- A field that is not there keeps the value that it has. -/
theorem readEntries_field {name : String} {store : α → σ → σ} {fields : List (Field σ)}
    (get : σ → α) (store_get : ∀ s, store (get s) s = s) :
    readEntries entries (field name value store :: fields) s = .ok t ↔
      ∃ a, Takes value (get s) (Document.lookup entries name) a ∧
        readEntries entries fields (store a s) = .ok t := by
  rw [readEntries_cons]
  simp only [Field.Reads, field]
  cases Document.lookup entries name with
  | none => simp [Takes, store_get]
  | some d => cases read : value d <;> simp [Takes, read, Except.map]

/-- It does not matter which of two fields is read first. -/
def Field.Commutes (f g : Field σ) : Prop :=
  ∀ entries s t, (∃ u, f.Reads entries s u ∧ g.Reads entries u t) ↔
    ∃ u, g.Reads entries s u ∧ f.Reads entries u t

theorem Field.Commutes.symm {f g : Field σ} (h : f.Commutes g) : g.Commutes f :=
  fun entries s t => (h entries s t).symm

/-- The fields of a section can be read in any order. -/
theorem readEntries_perm {fields fields' : List (Field σ)} (perm : fields.Perm fields')
    (commute : fields.Pairwise Field.Commutes) :
    readEntries entries fields s = .ok t ↔ readEntries entries fields' s = .ok t := by
  induction perm generalizing s with
  | nil => exact .rfl
  | cons f _ ih =>
    simp only [readEntries_cons]
    exact exists_congr fun u => and_congr_right' (ih (List.pairwise_cons.1 commute).2)
  | swap f g fields =>
    have fg := (List.pairwise_cons.1 commute).1 f (by simp)
    have swapped : ∀ v, (∃ u, g.Reads entries s u ∧ f.Reads entries u v) ↔
        ∃ u, f.Reads entries s u ∧ g.Reads entries u v := fg entries s
    simp only [readEntries_cons]
    constructor
    · rintro ⟨u, hu, v, hv, rest⟩
      obtain ⟨u', hu', hv'⟩ := (swapped v).1 ⟨u, hu, hv⟩
      exact ⟨u', hu', v, hv', rest⟩
    · rintro ⟨u, hu, v, hv, rest⟩
      obtain ⟨u', hu', hv'⟩ := (swapped v).2 ⟨u, hu, hv⟩
      exact ⟨u', hu', v, hv', rest⟩
  | trans first _ ih ih' =>
    exact (ih commute).trans (ih' (first.pairwise commute Field.Commutes.symm))

/-- Fields that are stored in different places can be read in either order. -/
theorem commutes_field {β : Type} {value' : Document → Except Misfit β} {name name' : String}
    {store : α → σ → σ} {store' : β → σ → σ}
    (apart : ∀ a b s, store a (store' b s) = store' b (store a s)) :
    (field name value store).Commutes (field name' value' store') := by
  intro entries s t
  simp only [Field.Reads, field]
  cases Document.lookup entries name with
  | none => cases Document.lookup entries name' <;> simp
  | some d =>
    cases Document.lookup entries name' with
    | none => simp
    | some d' =>
      cases hd : value d <;> cases hd' : value' d' <;> simp [Except.map, hd, hd', apart]

/-- Nothing is read from no entries. -/
theorem readEntries_no_entries (fields : List (Field σ)) (s : σ) :
    readEntries [] fields s = .ok s := by
  induction fields with
  | nil => rfl
  | cons f fields ih => simpa [readEntries] using ih

/-- A section that is missing is read like one without entries. -/
theorem takes_readSection {expected : String} {fields : List (Field σ)} {default s : σ}
    {described : (String → Option Document) → σ → Prop}
    (reads : ∀ entries, readSection expected fields default (.map entries) = .ok s ↔
      described (Document.lookup entries) s)
    {o : Option Document} (maps : ∀ v ∈ o, v.isMap = true) :
    Takes (readSection expected fields default) default o s ↔
      described (fun name => o.bind fun d => d.get? name) s := by
  cases o with
  | none =>
    have empty := reads []
    simp only [readSection, readEntries_no_entries, Except.ok.injEq] at empty
    exact eq_comm.trans empty
  | some d =>
    obtain ⟨entries, rfl⟩ := Document.isMap_iff.1 (maps d rfl)
    exact reads entries

end Config

open Config

/-! ## Sections -/

/-- The values of the fields of the capture section, by what is given for each. -/
@[mk_iff]
structure CaptureSettings.DescribedBy (given : String → Option Document) (s : CaptureSettings) :
    Prop where
  sources : Takes texts [] (given "sources") s.sources
  busCapacity : Takes (word "usize") 1000 (given "bus_capacity") s.busCapacity
  reconnectDelay : Takes (word "u64") 5000 (given "reconnect_delay_ms") s.reconnectDelay
  readDeadline : Takes (word "u64") 2000 (given "read_deadline_ms") s.readDeadline
  idleTimeout : Takes (word "u64") 3000 (given "idle_timeout_ms") s.idleTimeout
  keepalivePeriod : Takes (word "u64") 2000 (given "keepalive_period_ms") s.keepalivePeriod
  nodelay : Takes flag true (given "nodelay") s.nodelay
  readBufferSize : Takes size 1024 (given "read_buffer_size") s.readBufferSize
  hiccupMin : Takes (word "u64") 100 (given "hiccup_min_ms") s.hiccupMin
  reestablishedAfter :
    Takes (word "u64") 10000 (given "reestablished_after_ms") s.reestablishedAfter

/-- The values of the fields of the sink section, by what is given for each. -/
@[mk_iff]
structure SinkSettings.DescribedBy (given : String → Option Document) (s : SinkSettings) :
    Prop where
  directory : Takes (text "path string") "data" (given "directory") s.directory
  filePrefix : Takes (text "a string") "tracking" (given "prefix") s.filePrefix
  flushInterval : Takes (word "u64") 100 (given "flush_interval_ms") s.flushInterval
  compress : Takes flag true (given "compress") s.compress

/-- The value of the field of the telemetry section, by what is given for it. -/
@[mk_iff]
structure TelemetrySettings.DescribedBy (given : String → Option Document)
    (s : TelemetrySettings) : Prop where
  logLevel : Takes (text "a string") "info" (given "log_level") s.logLevel

/-- The values of all fields, by what is given for each field of each section. -/
@[mk_iff]
structure Settings.DescribedBy (given : String → String → Option Document) (s : Settings) :
    Prop where
  capture : s.capture.DescribedBy (given "capture")
  sink : s.sink.DescribedBy (given "sink")
  telemetry : s.telemetry.DescribedBy (given "telemetry")

instance (given : String → Option Document) (s : CaptureSettings) :
    Decidable (s.DescribedBy given) :=
  decidable_of_iff _ (CaptureSettings.describedBy_iff given s).symm

instance (given : String → Option Document) (s : SinkSettings) : Decidable (s.DescribedBy given) :=
  decidable_of_iff _ (SinkSettings.describedBy_iff given s).symm

instance (given : String → Option Document) (s : TelemetrySettings) :
    Decidable (s.DescribedBy given) :=
  decidable_of_iff _ (TelemetrySettings.describedBy_iff given s).symm

instance (given : String → String → Option Document) (s : Settings) :
    Decidable (s.DescribedBy given) :=
  decidable_of_iff _ (Settings.describedBy_iff given s).symm

/-- The names of the sections. -/
def Settings.sections : List String := ["capture", "sink", "telemetry"]

theorem Settings.DescribedBy.of_alike {given given' : String → String → Option Document}
    {s : Settings} (h : s.DescribedBy given)
    (alike : ∀ name ∈ sections, ∀ field, Document.Alike (given name field) (given' name field)) :
    s.DescribedBy given' := by
  obtain ⟨⟨h1, h2, h3, h4, h5, h6, h7, h8, h9, h10⟩, ⟨h11, h12, h13, h14⟩, ⟨h15⟩⟩ := h
  have capture := alike "capture" (by simp [sections])
  have sink := alike "sink" (by simp [sections])
  have telemetry := alike "telemetry" (by simp [sections])
  refine ⟨⟨?_, ?_, ?_, ?_, ?_, ?_, ?_, ?_, ?_, ?_⟩, ⟨?_, ?_, ?_, ?_⟩, ⟨?_⟩⟩
  · exact h1.of_alike refusesMaps_texts (capture _)
  · exact h2.of_alike (refusesMaps_word _) (capture _)
  · exact h3.of_alike (refusesMaps_word _) (capture _)
  · exact h4.of_alike (refusesMaps_word _) (capture _)
  · exact h5.of_alike (refusesMaps_word _) (capture _)
  · exact h6.of_alike (refusesMaps_word _) (capture _)
  · exact h7.of_alike refusesMaps_flag (capture _)
  · exact h8.of_alike refusesMaps_size (capture _)
  · exact h9.of_alike (refusesMaps_word _) (capture _)
  · exact h10.of_alike (refusesMaps_word _) (capture _)
  · exact h11.of_alike (refusesMaps_text _) (sink _)
  · exact h12.of_alike (refusesMaps_text _) (sink _)
  · exact h13.of_alike (refusesMaps_word _) (sink _)
  · exact h14.of_alike refusesMaps_flag (sink _)
  · exact h15.of_alike (refusesMaps_text _) (telemetry _)

/-! ## Reading a section -/

theorem CaptureSettings.ofDocument_map {entries : List (String × Document)} {s : CaptureSettings} :
    CaptureSettings.ofDocument (.map entries) = .ok s ↔ s.DescribedBy (Document.lookup entries) := by
  have apart : captureFields.Pairwise Field.Commutes := by
    simp [captureFields, commutes_field]
  rw [ofDocument, readSection, ← readEntries_perm (List.mergeSort_perm _ _).symm apart,
    captureFields]
  constructor
  · intro read
    obtain ⟨_, h1, read⟩ := (readEntries_field sources fun _ => rfl).1 read
    obtain ⟨_, h2, read⟩ := (readEntries_field busCapacity fun _ => rfl).1 read
    obtain ⟨_, h3, read⟩ := (readEntries_field reconnectDelay fun _ => rfl).1 read
    obtain ⟨_, h4, read⟩ := (readEntries_field readDeadline fun _ => rfl).1 read
    obtain ⟨_, h5, read⟩ := (readEntries_field idleTimeout fun _ => rfl).1 read
    obtain ⟨_, h6, read⟩ := (readEntries_field keepalivePeriod fun _ => rfl).1 read
    obtain ⟨_, h7, read⟩ := (readEntries_field nodelay fun _ => rfl).1 read
    obtain ⟨_, h8, read⟩ := (readEntries_field readBufferSize fun _ => rfl).1 read
    obtain ⟨_, h9, read⟩ := (readEntries_field hiccupMin fun _ => rfl).1 read
    obtain ⟨_, h10, read⟩ := (readEntries_field reestablishedAfter fun _ => rfl).1 read
    obtain rfl := readEntries_nil.1 read
    exact ⟨h1, h2, h3, h4, h5, h6, h7, h8, h9, h10⟩
  · rintro ⟨h1, h2, h3, h4, h5, h6, h7, h8, h9, h10⟩
    refine (readEntries_field sources fun _ => rfl).2 ⟨_, h1, ?_⟩
    refine (readEntries_field busCapacity fun _ => rfl).2 ⟨_, h2, ?_⟩
    refine (readEntries_field reconnectDelay fun _ => rfl).2 ⟨_, h3, ?_⟩
    refine (readEntries_field readDeadline fun _ => rfl).2 ⟨_, h4, ?_⟩
    refine (readEntries_field idleTimeout fun _ => rfl).2 ⟨_, h5, ?_⟩
    refine (readEntries_field keepalivePeriod fun _ => rfl).2 ⟨_, h6, ?_⟩
    refine (readEntries_field nodelay fun _ => rfl).2 ⟨_, h7, ?_⟩
    refine (readEntries_field readBufferSize fun _ => rfl).2 ⟨_, h8, ?_⟩
    refine (readEntries_field hiccupMin fun _ => rfl).2 ⟨_, h9, ?_⟩
    refine (readEntries_field reestablishedAfter fun _ => rfl).2 ⟨_, h10, ?_⟩
    exact readEntries_nil.2 rfl

theorem SinkSettings.ofDocument_map {entries : List (String × Document)} {s : SinkSettings} :
    SinkSettings.ofDocument (.map entries) = .ok s ↔ s.DescribedBy (Document.lookup entries) := by
  have apart : sinkFields.Pairwise Field.Commutes := by simp [sinkFields, commutes_field]
  rw [ofDocument, readSection, ← readEntries_perm (List.mergeSort_perm _ _).symm apart, sinkFields]
  constructor
  · intro read
    obtain ⟨_, h1, read⟩ := (readEntries_field directory fun _ => rfl).1 read
    obtain ⟨_, h2, read⟩ := (readEntries_field filePrefix fun _ => rfl).1 read
    obtain ⟨_, h3, read⟩ := (readEntries_field flushInterval fun _ => rfl).1 read
    obtain ⟨_, h4, read⟩ := (readEntries_field compress fun _ => rfl).1 read
    obtain rfl := readEntries_nil.1 read
    exact ⟨h1, h2, h3, h4⟩
  · rintro ⟨h1, h2, h3, h4⟩
    refine (readEntries_field directory fun _ => rfl).2 ⟨_, h1, ?_⟩
    refine (readEntries_field filePrefix fun _ => rfl).2 ⟨_, h2, ?_⟩
    refine (readEntries_field flushInterval fun _ => rfl).2 ⟨_, h3, ?_⟩
    refine (readEntries_field compress fun _ => rfl).2 ⟨_, h4, ?_⟩
    exact readEntries_nil.2 rfl

theorem TelemetrySettings.ofDocument_map {entries : List (String × Document)}
    {s : TelemetrySettings} :
    TelemetrySettings.ofDocument (.map entries) = .ok s ↔
      s.DescribedBy (Document.lookup entries) := by
  have apart : telemetryFields.Pairwise Field.Commutes := List.pairwise_singleton ..
  rw [ofDocument, readSection, ← readEntries_perm (List.mergeSort_perm _ _).symm apart,
    telemetryFields]
  constructor
  · intro read
    obtain ⟨_, h1, read⟩ := (readEntries_field logLevel fun _ => rfl).1 read
    obtain rfl := readEntries_nil.1 read
    exact ⟨h1⟩
  · rintro ⟨h1⟩
    exact (readEntries_field logLevel fun _ => rfl).2 ⟨_, h1, readEntries_nil.2 rfl⟩

/-- Settings are read from a document whose sections are maps exactly when each of their fields is
what the document has for it, or the default value. -/
theorem Settings.ofDocument_eq_ok_iff {d : Document} {s : Settings} (isMap : d.isMap = true)
    (maps : ∀ name ∈ sections, ∀ v ∈ d.get? name, v.isMap = true) :
    Settings.ofDocument d = .ok s ↔ s.DescribedBy d.field? := by
  obtain ⟨entries, rfl⟩ := Document.isMap_iff.1 isMap
  have capture : Takes CaptureSettings.ofDocument {} (Document.lookup entries "capture") s.capture ↔
      s.capture.DescribedBy ((Document.map entries).field? "capture") :=
    takes_readSection (fun _ => CaptureSettings.ofDocument_map) (maps _ (by simp [sections]))
  have sink : Takes SinkSettings.ofDocument {} (Document.lookup entries "sink") s.sink ↔
      s.sink.DescribedBy ((Document.map entries).field? "sink") :=
    takes_readSection (fun _ => SinkSettings.ofDocument_map) (maps _ (by simp [sections]))
  have telemetry :
      Takes TelemetrySettings.ofDocument {} (Document.lookup entries "telemetry") s.telemetry ↔
        s.telemetry.DescribedBy ((Document.map entries).field? "telemetry") :=
    takes_readSection (fun _ => TelemetrySettings.ofDocument_map) (maps _ (by simp [sections]))
  rw [ofDocument, readSection, ← readEntries_perm (List.mergeSort_perm _ _).symm
    (by simp [commutes_field])]
  constructor
  · intro read
    obtain ⟨_, h1, read⟩ := (readEntries_field Settings.capture fun _ => rfl).1 read
    obtain ⟨_, h2, read⟩ := (readEntries_field Settings.sink fun _ => rfl).1 read
    obtain ⟨_, h3, read⟩ := (readEntries_field Settings.telemetry fun _ => rfl).1 read
    obtain rfl := readEntries_nil.1 read
    exact ⟨capture.1 h1, sink.1 h2, telemetry.1 h3⟩
  · rintro ⟨h1, h2, h3⟩
    refine (readEntries_field Settings.capture fun _ => rfl).2 ⟨_, capture.2 h1, ?_⟩
    refine (readEntries_field Settings.sink fun _ => rfl).2 ⟨_, sink.2 h2, ?_⟩
    refine (readEntries_field Settings.telemetry fun _ => rfl).2 ⟨_, telemetry.2 h3, ?_⟩
    exact readEntries_nil.2 rfl

end FeedCapture
