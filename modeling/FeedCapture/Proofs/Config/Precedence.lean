import FeedCapture.Proofs.Config.Rules
import FeedCapture.Proofs.Config.Sections

/-!
# The highest layer decides

Every setting is what the highest layer that has it gives: a variable, the file of the environment,
or the base file; and what no layer has keeps its default value.  What a higher layer overrides has
no part in it, be it of the right form or not.

## Main definitions

* `Settings.Sectioned` — documents whose sections are maps
* `Config.NamesFields` — variables that name single fields
* `Config.given?` — what the highest layer has for a field
* `Settings.ComesTo` — loading comes to the settings that some values describe

The main statement is `Settings.highest_layer_decides`.
-/

namespace FeedCapture

/-- The sections of a document, as far as they are there, are maps. -/
def Settings.Sectioned (d : Document) : Prop :=
  ∀ name ∈ Settings.sections, ∀ v ∈ d.get? name, v.isMap = true

namespace Config

/-- Every variable that has to do with a section names a single field of it. -/
def NamesFields (env : Environment) : Prop :=
  ∀ v ∈ env, ∀ name rest, keys? v.1 = some (name :: rest) → name ∈ Settings.sections →
    ∃ field, rest = [field]

/-- What the variables have for a field: the value of the one that names it.  If several do, the
last one counts. -/
def ofVariables? (env : Environment) (name field : String) : Option Document :=
  env.reverse.findSome? fun v =>
    if keys? v.1 = some [name, field] then some (valueOf v.2) else none

/-- What the highest layer has for a field.  The variables are above the documents, which are given
from the lowest to the highest. -/
def given? (env : Environment) (documents : List Document) (name field : String) :
    Option Document :=
  (ofVariables? env name field).or (documents.reverse.findSome? fun d => d.field? name field)

/-! ## Variables -/

theorem pieces_ne_nil (chars : List Char) : pieces chars ≠ [] := by
  induction chars with
  | nil => simp [pieces]
  | cons c rest ih =>
    unfold pieces
    split
    · simp
    · split <;> simp

/-- The name of a variable describes at least one key. -/
theorem keys?_ne_nil (name : String) : keys? name ≠ some [] := by
  unfold keys?
  split
  · simp
  · dsimp only
    split
    · simp
    · simp [pieces_ne_nil]

/-- The document of one variable. -/
def ofVariable? (v : String × String) : Option Document :=
  (keys? v.1).map fun keys => .nest keys (valueOf v.2)

theorem variableDocument_eq (env : Environment) :
    variableDocument env = (env.filterMap ofVariable?).foldl Document.merge (.map []) := by
  rw [variableDocument, List.foldl_filterMap]
  congr
  funext d v
  cases h : keys? v.1 <;> simp [ofVariable?, h]

theorem field?_nest (name other : String) (keys : List String) (value : Document)
    (field : String) :
    (Document.nest (other :: keys) value).field? name field =
      if other = name then (Document.nest keys value).get? field else none := by
  by_cases here : other = name <;>
    simp [Document.field?, Document.nest, Document.get?, Document.lookup_cons, here]

variable {env : Environment}

/-- What a variable has for a field of a section. -/
theorem field?_ofVariable? (single : NamesFields env) {v : String × String} (hv : v ∈ env)
    {name : String} (known : name ∈ Settings.sections) (field : String) :
    ((ofVariable? v).bind fun d => d.field? name field) =
      if keys? v.1 = some [name, field] then some (valueOf v.2) else none := by
  cases keys : keys? v.1 with
  | none => simp [ofVariable?, keys]
  | some path =>
    cases path with
    | nil => exact absurd keys (keys?_ne_nil v.1)
    | cons other rest =>
      simp only [ofVariable?, keys, Option.map_some, Option.bind_some, field?_nest]
      by_cases here : other = name
      · obtain ⟨field', rfl⟩ := single v hv other rest keys (here ▸ known)
        simp [here, Document.nest, Document.get?, Document.lookup_cons]
      · simp [here]

/-- The last variable that names a field decides what the variables have for it. -/
theorem findSome?_variables (single : NamesFields env) {name : String}
    (known : name ∈ Settings.sections) (field : String) :
    ((env.filterMap ofVariable?).reverse.findSome? fun d => d.field? name field) =
      ofVariables? env name field := by
  unfold ofVariables?
  induction env with
  | nil => rfl
  | cons v env ih =>
    have here := field?_ofVariable? single (List.mem_cons_self ..) known field
    have later := ih fun w hw => single w (List.mem_cons_of_mem _ hw)
    simp only [List.reverse_cons, List.findSome?_append, List.findSome?_singleton, ← later,
      ← here, List.filterMap_cons]
    cases ofVariable? v <;> simp [List.findSome?_append]

/-- The document of a variable is a map with one entry. -/
theorem exists_of_mem_variables {d : Document} (hd : d ∈ env.filterMap ofVariable?) :
    ∃ v ∈ env, ∃ name rest, keys? v.1 = some (name :: rest) ∧
      d = .map [(name, .nest rest (valueOf v.2))] := by
  obtain ⟨v, hv, hd⟩ := List.mem_filterMap.1 hd
  obtain ⟨path, keys, rfl⟩ := Option.map_eq_some_iff.1 hd
  cases path with
  | nil => exact absurd keys (keys?_ne_nil v.1)
  | cons name rest => exact ⟨v, hv, name, rest, keys, rfl⟩

theorem gathers_variableDocument (single : NamesFields env) :
    Document.Gathers Settings.sections (variableDocument env) (ofVariables? env) := by
  have isMap : ∀ d ∈ env.filterMap ofVariable?, d.isMap = true := by
    intro d hd
    obtain ⟨v, -, name, rest, -, rfl⟩ := exists_of_mem_variables hd
    rfl
  have maps : ∀ d ∈ env.filterMap ofVariable?, Settings.Sectioned d := by
    intro d hd name known u hu
    obtain ⟨v, hv, other, rest, keys, rfl⟩ := exists_of_mem_variables hd
    simp only [Document.get?, Document.lookup_cons, Document.lookup_nil, Option.none_or,
      Option.mem_def, Option.ite_none_right_eq_some, Option.some.injEq] at hu
    obtain ⟨rfl, rfl⟩ := hu
    obtain ⟨field, rfl⟩ := single v hv other rest keys known
    rfl
  have all := (Document.gathers_empty Settings.sections).foldl isMap maps
  rw [variableDocument_eq]
  refine ⟨all.isMap, all.maps, fun name known field => ?_⟩
  have alike := all.fields name known field
  rwa [findSome?_variables single known field, Option.or_none] at alike

end Config

open Config

namespace Settings

variable {files : Files} {env : Environment}

/-- Loading comes to the settings that the given values describe, and accepts them if they keep
their rules; only where no settings are described is a value reported that does not fit. -/
structure ComesTo (result : Except LoadError Settings)
    (given : String → String → Option Document) : Prop where
  described : ∀ s : Settings, s.DescribedBy given → result = s.validated
  misfit : (∀ s : Settings, ¬s.DescribedBy given) → ∃ m origin, result = .error (.misfit m origin)

theorem isMap_of_ofFile {path : String} {layers : List Layer}
    (read : Layer.ofFile files path = .ok layers) : ∀ l ∈ layers, l.document.isMap = true := by
  intro l hl
  unfold Layer.ofFile at read
  split at read
  · split at read
    · cases read
      obtain rfl := List.mem_singleton.1 hl
      rfl
    · cases read
  · cases read
    cases hl

/-- A file that holds a well-formed text is a layer of its own. -/
theorem ofFile_of_text {path text : String} {entries : List (String × Document)}
    (file : files path = some (.file text.toUTF8.data.toList))
    (read : Yaml.readMap? text = some entries) :
    Layer.ofFile files path = .ok [⟨.file (Layer.shownName path), .map entries⟩] := by
  have decoded : String.fromUTF8? ⟨text.toUTF8.data.toList.toArray⟩ = some text := by
    rw [Array.toArray_toList]
    have valid : text.toUTF8.IsValidUTF8 := text.isValidUTF8
    simpa [String.fromUTF8?] using ⟨valid, rfl⟩
  simp only [Layer.ofFile, file, decoded, Option.bind_some, read]

theorem comesTo_resolve {layers : List Layer} (single : NamesFields env)
    (isMap : ∀ l ∈ layers, l.document.isMap = true)
    (maps : ∀ l ∈ layers, Sectioned l.document) :
    ComesTo (resolve (layers ++ [Layer.ofEnvironment env]))
      (given? env (layers.map (·.document))) := by
  have gathered : Document.Gathers sections
      (Layer.combined (layers ++ [Layer.ofEnvironment env]))
      (given? env (layers.map (·.document))) := by
    have isMap : ∀ d ∈ layers.map (·.document), d.isMap = true := List.forall_mem_map.2 isMap
    have maps : ∀ d ∈ layers.map (·.document), Sectioned d := List.forall_mem_map.2 maps
    have below := (Document.gathers_empty sections).foldl isMap maps
    have all := below.merge (gathers_variableDocument single)
    simp only [Option.or_none, List.foldl_map] at all
    rw [Layer.combined, List.foldl_append]
    exact all
  have reads : ∀ s : Settings,
      ofDocument (Layer.combined (layers ++ [Layer.ofEnvironment env])) = .ok s ↔
        s.DescribedBy (given? env (layers.map (·.document))) := by
    intro s
    rw [ofDocument_eq_ok_iff gathered.isMap gathered.maps]
    exact ⟨fun h => h.of_alike gathered.fields,
      fun h => h.of_alike fun name known field => (gathered.fields name known field).symm⟩
  constructor
  · intro s described
    simp only [resolve, (reads s).2 described]
  · intro none
    unfold resolve
    split
    · next s read => exact absurd ((reads s).1 read) (none s)
    · next m misfit => exact ⟨m, _, rfl⟩

/-- What has come to some settings has accepted them. -/
theorem ComesTo.eq_ok_iff {result : Except LoadError Settings}
    {given : String → String → Option Document} (h : ComesTo result given) {s : Settings} :
    result = .ok s ↔ s.DescribedBy given ∧ s.Obeys := by
  constructor
  · intro accepted
    by_cases some : ∃ t : Settings, t.DescribedBy given
    · obtain ⟨t, described⟩ := some
      obtain ⟨rfl, obeys⟩ := validated_eq_ok_iff.1 ((h.described t described).symm.trans accepted)
      exact ⟨described, obeys⟩
    · obtain ⟨m, origin, refused⟩ := h.misfit (not_exists.1 some)
      cases accepted.symm.trans refused
  · rintro ⟨described, obeys⟩
    rw [h.described s described]
    exact validated_eq_ok_iff.2 ⟨rfl, obeys⟩

theorem comesTo_loadFrom (single : NamesFields env) {path : String} {layers : List Layer}
    (there : files path ≠ none) (read : Layer.ofFile files path = .ok layers)
    (maps : ∀ l ∈ layers, Sectioned l.document) :
    ComesTo (loadFrom files env path) (given? env (layers.map (·.document))) := by
  have found : (files path).isNone = false :=
    Option.isNone_eq_false_iff.2 (Option.isSome_iff_ne_none.2 there)
  simpa [loadFrom, found, read] using comesTo_resolve single (isMap_of_ofFile read) maps

/-- **The highest layer decides.**  Let the sections of all documents be maps, and let the
variables name single fields.  Then every field of the settings that are loaded from the usual files
is what the highest layer that has the field gives, where variables are above the file of the
environment and this is above the base file, and the default value where no layer has it; nothing
else counts.  The same holds for settings from a file of their own, with this file as the only
document. -/
theorem highest_layer_decides (single : NamesFields env) :
    (∀ base selected, Layer.ofFile files baseFile = .ok base →
      Layer.ofFile files (environmentFile env) = .ok selected →
      (∀ l ∈ base ++ selected, Sectioned l.document) →
      ComesTo (load files env) (given? env ((base ++ selected).map (·.document)))) ∧
    ∀ path layers, files path ≠ none → Layer.ofFile files path = .ok layers →
      (∀ l ∈ layers, Sectioned l.document) →
      ComesTo (loadFrom files env path) (given? env (layers.map (·.document))) := by
  constructor
  · intro base selected readBase readSelected maps
    have isMap : ∀ l ∈ base ++ selected, l.document.isMap = true := by
      intro l hl
      rcases List.mem_append.1 hl with hl | hl
      · exact isMap_of_ofFile readBase l hl
      · exact isMap_of_ofFile readSelected l hl
    simpa only [load, readBase, readSelected] using comesTo_resolve single isMap maps
  · intro path layers there read maps
    exact comesTo_loadFrom single there read maps

instance (d : Document) : Decidable (Sectioned d) :=
  inferInstanceAs (Decidable (∀ name ∈ sections, ∀ v ∈ d.get? name, v.isMap = true))

theorem readMap?_eq_some (text : String) (read : (Yaml.readMap? text).isSome = true) :
    Yaml.readMap? text = some ((Yaml.readMap? text).getD []) := by
  cases h : Yaml.readMap? text with
  | none => simp [h] at read
  | some entries => rfl

/-- A base file with a capacity that is no number. -/
def overriddenText : String :=
  "capture:\n  sources: [\"a:1\", \"b:1\"]\n  bus_capacity: many\nsink:\n  prefix: raw\n"

/-- A file that has other sources. -/
def overridingText : String := "capture:\n  sources: [\"c:1\"]\n"

/-- The two files, the second as the one for staging. -/
def overriddenFiles : Files := fun path =>
  if path = baseFile then some (.file overriddenText.toUTF8.data.toList)
  else if path = "config/staging.yaml" then some (.file overridingText.toUTF8.data.toList)
  else none

/-- Variables that select staging and give a capacity. -/
def overridingVariables : Environment :=
  [("TRACKFEED_ENV", "staging"), ("TRACKFEED_CAPTURE__BUS_CAPACITY", "64")]

/-- The prefix of the base file, the sources for staging and the capacity of the variable come
together, and so do the sources of the base file and the capacity when this file is the only one. -/
theorem highest_layer_decides_overridden :
    NamesFields overridingVariables ∧
    load overriddenFiles overridingVariables =
      .ok
        { capture := { sources := ["c:1"], busCapacity := 64 }
          sink := { filePrefix := "raw" } } ∧
    loadFrom overriddenFiles overridingVariables baseFile =
      .ok
        { capture := { sources := ["a:1", "b:1"], busCapacity := 64 }
          sink := { filePrefix := "raw" } } := by
  have single : NamesFields overridingVariables := by
    have selects : keys? "TRACKFEED_ENV" = some ["env"] := by decide +kernel
    have sets : keys? "TRACKFEED_CAPTURE__BUS_CAPACITY" = some ["capture", "bus_capacity"] := by
      decide +kernel
    simp [NamesFields, overridingVariables, selects, sets, sections]
  have low := readMap?_eq_some overriddenText (by decide +kernel)
  have high := readMap?_eq_some overridingText (by decide +kernel)
  have lowFile : overriddenFiles baseFile = some (.file overriddenText.toUTF8.data.toList) :=
    if_pos rfl
  have highFile : overriddenFiles (environmentFile overridingVariables) =
      some (.file overridingText.toUTF8.data.toList) := by
    have selected : environmentFile overridingVariables = "config/staging.yaml" := by
      decide +kernel
    rw [selected]
    exact (if_neg (by decide)).trans (if_pos rfl)
  refine ⟨single, ?_, ?_⟩
  · have comes := (highest_layer_decides single).1 _ _ (ofFile_of_text lowFile low)
      (ofFile_of_text highFile high) (by
        simp only [List.cons_append, List.nil_append, List.mem_cons, List.not_mem_nil, or_false,
          forall_eq_or_imp, forall_eq]
        decide +kernel)
    refine comes.eq_ok_iff.2 ⟨?_, (violations_eq_nil_iff _).1 (by decide +kernel)⟩
    simp only [List.cons_append, List.nil_append, List.map_cons, List.map_nil]
    decide +kernel
  · have comes := (highest_layer_decides single).2 baseFile _ (by simp [lowFile])
      (ofFile_of_text lowFile low) (by
        simp only [List.mem_singleton, forall_eq]
        decide +kernel)
    refine comes.eq_ok_iff.2 ⟨?_, (violations_eq_nil_iff _).1 (by decide +kernel)⟩
    simp only [List.map_cons, List.map_nil]
    decide +kernel

end Settings

end FeedCapture
