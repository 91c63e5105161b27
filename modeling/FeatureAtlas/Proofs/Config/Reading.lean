import FeatureAtlas.Proofs.Config.Check
import FeatureAtlas.Proofs.Config.Mapping

/-!
# What validation reads

For each check of the schema, the reading that describes it: the accepted form of a value. Readings carry no
paths and no messages, so statements about accepted configurations are made of them.
-/

namespace FeatureAtlas

namespace Reading

/-- A text that is not blank, trimmed. -/
def text : Setting → Option String
  | .str s => if Text.strip s = "" then none else some (Text.strip s)
  | _ => none

/-- A trimmed text that can be a path. -/
def pathText (v : Setting) : Option String := do
  let s ← text v
  if '\x00' ∉ s.toList then some s else none

/-- Texts, each read as one. -/
def textList : List Setting → Option (List String)
  | [] => some []
  | x :: xs => do return (← text x) :: (← textList xs)

/-- A list of texts. -/
def texts (v : Setting) : Option (List String) := do textList (← Check.elements? v)

/-- The text is a pattern. -/
def compiles (s : String) : Bool := (Pattern.compile s).isOk

theorem compiles_iff {s : String} : compiles s = true ↔ ∃ p, Pattern.compile s = .ok p := by
  rw [compiles]
  cases Pattern.compile s with
  | error e => simp [Except.isOk, Except.toBool]
  | ok p => simp [Except.isOk, Except.toBool]

/-- A list of patterns. -/
def patterns (v : Setting) : Option (List String) := do
  let ps ← texts v
  if ps.all compiles then some ps else none

/-- An integer from a minimum on. -/
def integer (minimum : Int) : Setting → Option Int
  | .int n => if n < minimum then none else some n
  | _ => none

/-- One of the given words. -/
def oneOf (words : List String) (v : Setting) : Option String := do
  let s ← text v
  if s ∈ words then some s else none

/-- The schema version that is understood. -/
def version (v : Setting) : Option Int := do
  let n ← integer 1 v
  if n = Config.schemaVersion then some n else none

/-- A list of globs with an entry. -/
def globs (v : Setting) : Option (List String) := do
  let gs ← texts v
  if gs ≠ [] then some gs else none

/-- A log level in any case. -/
def logLevel : Setting → Option String
  | .str s => oneOf Config.logLevels (.str (Text.upper s))
  | _ => none

/-- A log file, or a blank text for none. -/
def logFile : Setting → Option String
  | .str s => if Text.strip s = "" then some "" else pathText (.str s)
  | _ => none

end Reading

namespace Check

/-! ## Checks of values -/

theorem reads_text (path : String) (v : Setting) : Reads (text path v) (Reading.text v) := by
  cases v with
  | str s =>
    rw [text, Reading.text]
    simp only [beq_iff_eq]
    split
    · exact reads_refuse _ _
    · exact reads_pure _
  | _ => exact reads_refuse _ _

theorem reads_pathText (path : String) (v : Setting) :
    Reads (pathText path v) (Reading.pathText v) := by
  refine (reads_text path v).bind (grows_pure none) fun s ↦ ?_
  simp only [List.contains_iff_mem, ite_not]
  split
  · exact reads_refuse _ _
  · exact reads_pure _

theorem reads_textsFrom (path : String) (xs : List Setting) :
    ∀ index, Reads (textsFrom path index xs) (Reading.textList xs) := by
  induction xs with
  | nil => intro index; exact reads_pure []
  | cons x xs ih =>
    intro index
    have hrest : Grows (textsFrom path (index + 1) xs) := (ih (index + 1)).grows
    refine (reads_text (at_ path index) x).bind ?_ fun s ↦ ?_
    · exact inferInstanceAs (Grows (textsFrom path (index + 1) xs >>= fun _ ↦ pure none))
    · exact (ih (index + 1)).bind (grows_pure none) fun rest ↦ reads_pure (s :: rest)

theorem reads_texts (path : String) (v : Setting) : Reads (texts path v) (Reading.texts v) := by
  rw [texts, Reading.texts]
  cases elements? v with
  | none => exact reads_refuse _ _
  | some xs => exact reads_textsFrom path xs 0

theorem grows_patternsFrom (path : String) (ps : List String) :
    ∀ index, Grows (patternsFrom path index ps) := by
  induction ps with
  | nil => intro index; exact grows_pure true
  | cons s ps ih =>
    intro index
    have := ih (index + 1)
    rw [patternsFrom]
    split <;> infer_instance

theorem clean_patternsFrom (path : String) (ps : List String) :
    ∀ index r, Clean (patternsFrom path index ps) r ↔ ps.all Reading.compiles = true ∧ r = true := by
  induction ps with
  | nil => intro index r; simp [patternsFrom, clean_pure]
  | cons s ps ih =>
    intro index r
    have := grows_patternsFrom path ps (index + 1)
    rw [patternsFrom, List.all_cons, Bool.and_eq_true, Reading.compiles_iff]
    split
    · next p hp => rw [ih, hp]; simp
    · next f position hp =>
      rw [clean_bind, hp]
      simp [not_clean_issue]
    · next e _ hp => simp [not_clean_throw, hp]

theorem reads_patterns (path : String) (v : Setting) :
    Reads (patterns path v) (Reading.patterns v) := by
  refine (reads_texts path v).bind (grows_pure none) fun ps ↦ ?_
  have hgives : Gives (patternsFrom path 0 ps) (if ps.all Reading.compiles then some true else none) := by
    refine ⟨grows_patternsFrom path ps 0, fun r ↦ ?_⟩
    rw [clean_patternsFrom]
    split
    · next hall => rw [and_iff_right hall, Option.some.injEq, eq_comm]
    · next hall => simp [hall]
  have hreads := hgives.bind fun b ↦ gives_pure (if b then some ps else none)
  split at hreads <;> rename_i hall
  · rwa [Reads, if_pos hall]
  · rwa [Reads, if_neg hall]

theorem reads_integer (minimum : Int) (path : String) (v : Setting) :
    Reads (integer minimum path v) (Reading.integer minimum v) := by
  cases v with
  | int n =>
    rw [integer, Reading.integer]
    split
    · exact reads_refuse _ _
    · exact reads_pure _
  | _ => exact reads_refuse _ _

theorem reads_oneOf (words : List String) (path : String) (v : Setting) :
    Reads (oneOf words path v) (Reading.oneOf words v) := by
  refine (reads_text path v).bind (grows_pure none) fun s ↦ ?_
  simp only [List.contains_iff_mem]
  split
  · exact reads_pure _
  · exact reads_refuse _ _

/-- A check that records an issue under a condition and keeps the value. -/
private theorem reads_flagged {α : Type} (p : Prop) [Decidable p] (path message : String) (x : α) :
    Reads (if p then issue path message >>= fun _ ↦ pure (some x) else pure (some x))
      (if p then none else some x) := by
  refine ⟨inferInstance, fun r ↦ ?_⟩
  split
  · rw [clean_bind]
    simp [not_clean_issue]
  · exact (reads_pure x).clean r

theorem reads_version (path : String) (v : Setting) :
    Reads (version path v) (Reading.version v) := by
  refine (reads_integer 1 path v).bind (grows_pure none) fun n ↦ ?_
  simpa only [bne_iff_ne, ne_eq, ite_not] using
    reads_flagged ((n != Config.schemaVersion) = true) path (Config.versionAdvice n) n

theorem reads_globs (path : String) (v : Setting) : Reads (globs path v) (Reading.globs v) := by
  refine (reads_texts path v).bind (grows_pure none) fun gs ↦ ?_
  simpa only [List.isEmpty_iff, ne_eq, ite_not] using
    reads_flagged (gs.isEmpty = true) path "must list at least one glob" gs

theorem reads_logLevel (path : String) (v : Setting) :
    Reads (logLevel path v) (Reading.logLevel v) := by
  cases v with
  | str s => exact reads_oneOf _ path _
  | _ => exact reads_oneOf _ path _

theorem reads_logFile (path : String) (v : Setting) :
    Reads (logFile path v) (Reading.logFile v) := by
  cases v with
  | str s =>
    rw [logFile, Reading.logFile]
    simp only [beq_iff_eq]
    split
    · exact reads_pure _
    · exact reads_pathText path _
  | _ => exact reads_pathText path _

end Check

/-! ## Shapes -/

namespace Reading

/-- The fields are the allowed ones, and all of them. -/
def Shaped (allowed : List String) (fields : Table Setting) : Prop :=
  (∀ k ∈ fields.map Prod.fst, k ∈ allowed) ∧ ∀ k ∈ allowed, (fields.lookup k).isSome

instance (allowed : List String) (fields : Table Setting) : Decidable (Shaped allowed fields) :=
  inferInstanceAs (Decidable (_ ∧ _))

end Reading

namespace Check

instance grows_forM (f : String → Check Unit) [∀ k, Grows (f k)] (ks : List String) :
    Grows (ks.forM f) := by
  induction ks with
  | nil => exact grows_pure ()
  | cons k ks ih => exact inferInstanceAs (Grows (f k >>= fun _ ↦ ks.forM f))

private theorem clean_forM_issue {path message : String → String} {ks : List String} {u : Unit} :
    Clean (ks.forM fun k ↦ issue (path k) (message k)) u ↔ ks = [] := by
  cases ks with
  | nil => simp [List.forM, clean_pure]
  | cons k ks =>
    rw [List.forM, clean_bind]
    simp [not_clean_issue]

private theorem sort_eq_nil {xs : List String} : Text.sort xs = [] ↔ xs = [] := by
  rw [← List.length_eq_zero_iff, ← List.length_eq_zero_iff, Text.sort, List.length_mergeSort]

instance grows_shape (allowed : List String) (path : String) (fields : Table Setting) :
    Grows (shape allowed path fields) := by
  rw [shape]
  infer_instance

theorem clean_shape {allowed : List String} {path : String} {fields : Table Setting} {u : Unit} :
    Clean (shape allowed path fields) u ↔ Reading.Shaped allowed fields := by
  rw [shape, clean_bind]
  simp only [clean_forM_issue, sort_eq_nil, List.filter_eq_nil_iff, exists_const, Bool.not_eq_true,
    Bool.not_eq_false', List.contains_iff_mem, Option.isNone_eq_false_iff, Reading.Shaped]

theorem gives_shape (allowed : List String) (path : String) (fields : Table Setting) :
    Gives (shape allowed path fields)
      (if Reading.Shaped allowed fields then some () else none) := by
  refine ⟨inferInstance, fun u ↦ ?_⟩
  rw [clean_shape]
  split
  · next hs => exact iff_of_true hs rfl
  · next hs => exact iff_of_false hs nofun

end Check

/-! ## Fields and sections -/

namespace Reading

/-- What is read of a field that is there. -/
def field {α : Type} (fields : Table Setting) (key : String) (reading : Setting → Option α) :
    Option α := do reading (← fields.lookup key)

/-- The names of the sections. -/
def sectionNames : List String := ["meta", "feature_map", "analysis", "observability"]

/-- The section about the configuration itself. -/
def metaSection (fields : Table Setting) : Option MetaSection := do
  if Shaped ["schema_version"] fields then
    return ⟨← field fields "schema_version" version⟩
  else none

/-- The section about the files to read and the map to write. -/
def mapSection (fields : Table Setting) : Option MapSection := do
  if Shaped ["include", "exclude", "output_dir"] fields then
    return ⟨← field fields "include" globs, ← field fields "exclude" texts,
      ← field fields "output_dir" pathText⟩
  else none

/-- The section about the reference analysis. -/
def analysisSection (fields : Table Setting) : Option AnalysisSection := do
  if Shaped ["tsconfig", "read_concurrency", "component_patterns", "action_patterns",
      "module_patterns"] fields then
    return ⟨← field fields "tsconfig" pathText,
      ⟨← field fields "component_patterns" patterns, ← field fields "action_patterns" patterns,
        ← field fields "module_patterns" patterns⟩,
      ← field fields "read_concurrency" (integer 1)⟩
  else none

/-- The section about logging. -/
def observabilitySection (fields : Table Setting) : Option ObservabilitySection := do
  if Shaped ["log_level", "log_file"] fields then
    return ⟨← field fields "log_level" logLevel, ← field fields "log_file" logFile⟩
  else none

theorem metaSection_eq_some {fields : Table Setting} {s : MetaSection} :
    metaSection fields = some s ↔
      Shaped ["schema_version"] fields ∧
        field fields "schema_version" version = some s.schemaVersion := by
  rw [metaSection]
  split
  · next hs =>
    constructor
    · intro h
      obtain ⟨n, hn, heq⟩ := Option.bind_eq_some_iff.mp h
      obtain rfl := Option.some.inj heq
      exact ⟨hs, hn⟩
    · rintro ⟨-, hn⟩
      rw [hn]
      rfl
  · next hs => exact iff_of_false nofun fun h ↦ hs h.1

theorem mapSection_eq_some {fields : Table Setting} {s : MapSection} :
    mapSection fields = some s ↔
      Shaped ["include", "exclude", "output_dir"] fields ∧
        field fields "include" globs = some s.included ∧
        field fields "exclude" texts = some s.excluded ∧
        field fields "output_dir" pathText = some s.outputDir := by
  rw [mapSection]
  split
  · next hs =>
    constructor
    · intro h
      obtain ⟨included, hincluded, h⟩ := Option.bind_eq_some_iff.mp h
      obtain ⟨excluded, hexcluded, h⟩ := Option.bind_eq_some_iff.mp h
      obtain ⟨outputDir, houtputDir, h⟩ := Option.bind_eq_some_iff.mp h
      obtain rfl := Option.some.inj h
      exact ⟨hs, hincluded, hexcluded, houtputDir⟩
    · rintro ⟨-, hincluded, hexcluded, houtputDir⟩
      rw [hincluded, hexcluded, houtputDir]
      rfl
  · next hs => exact iff_of_false nofun fun h ↦ hs h.1

theorem analysisSection_eq_some {fields : Table Setting} {s : AnalysisSection} :
    analysisSection fields = some s ↔
      Shaped ["tsconfig", "read_concurrency", "component_patterns", "action_patterns",
          "module_patterns"] fields ∧
        field fields "tsconfig" pathText = some s.tsconfig ∧
        field fields "component_patterns" patterns = some s.patterns.component ∧
        field fields "action_patterns" patterns = some s.patterns.action ∧
        field fields "module_patterns" patterns = some s.patterns.module ∧
        field fields "read_concurrency" (integer 1) = some s.readConcurrency := by
  rw [analysisSection]
  split
  · next hs =>
    constructor
    · intro h
      obtain ⟨tsconfig, htsconfig, h⟩ := Option.bind_eq_some_iff.mp h
      obtain ⟨component, hcomponent, h⟩ := Option.bind_eq_some_iff.mp h
      obtain ⟨action, haction, h⟩ := Option.bind_eq_some_iff.mp h
      obtain ⟨module, hmodule, h⟩ := Option.bind_eq_some_iff.mp h
      obtain ⟨readConcurrency, hreadConcurrency, h⟩ := Option.bind_eq_some_iff.mp h
      obtain rfl := Option.some.inj h
      exact ⟨hs, htsconfig, hcomponent, haction, hmodule, hreadConcurrency⟩
    · rintro ⟨-, htsconfig, hcomponent, haction, hmodule, hreadConcurrency⟩
      rw [htsconfig, hcomponent, haction, hmodule, hreadConcurrency]
      rfl
  · next hs => exact iff_of_false nofun fun h ↦ hs h.1

theorem observabilitySection_eq_some {fields : Table Setting} {s : ObservabilitySection} :
    observabilitySection fields = some s ↔
      Shaped ["log_level", "log_file"] fields ∧
        field fields "log_level" logLevel = some s.logLevel ∧
        field fields "log_file" logFile = some s.logFile := by
  rw [observabilitySection]
  split
  · next hs =>
    constructor
    · intro h
      obtain ⟨level, hlevel, h⟩ := Option.bind_eq_some_iff.mp h
      obtain ⟨file, hfile, h⟩ := Option.bind_eq_some_iff.mp h
      obtain rfl := Option.some.inj h
      exact ⟨hs, hlevel, hfile⟩
    · rintro ⟨-, hlevel, hfile⟩
      rw [hlevel, hfile]
      rfl
  · next hs => exact iff_of_false nofun fun h ↦ hs h.1

/-- The fields of a mapping with text keys. -/
def object : Setting → Option (Table Setting)
  | .map entries => KeyOrder.textEntries? entries
  | _ => none

theorem object_eq_some {v : Setting} {fields : Table Setting} :
    object v = some fields ↔ v = .ofFields fields := by
  cases v with
  | map entries =>
    rw [object, Setting.textEntries?_eq_some, Setting.ofFields, Setting.map.injEq]
  | _ => simp [object, Setting.ofFields]

/-- What is read of a section: a section that is null is passed over. -/
def section_ {α : Type} (fields : Table Setting) (key : String)
    (reading : Table Setting → Option α) : Option (Option α) :=
  match fields.lookup key with
  | none => some none
  | some .null => some none
  | some v => (object v >>= reading).map some

/-- A section that is there is either null or written with its fields. -/
theorem section_eq_some {α : Type} {fields : Table Setting} {key : String}
    {reading : Table Setting → Option α} {r : Option α} (hkey : (fields.lookup key).isSome) :
    section_ fields key reading = some r ↔
      (fields.lookup key = some .null ∧ r = none) ∨
        ∃ inner x, fields.lookup key = some (.ofFields inner) ∧ reading inner = some x ∧
          r = some x := by
  obtain ⟨v, hv⟩ := Option.isSome_iff_exists.mp hkey
  rw [section_, hv]
  cases v with
  | map entries =>
    simp only [Option.map_eq_some_iff, Option.bind_eq_bind, Option.bind_eq_some_iff, object_eq_some,
      Option.some.injEq, reduceCtorEq, false_and, false_or]
    constructor
    · rintro ⟨x, ⟨inner, hinner, hx⟩, rfl⟩
      exact ⟨inner, x, hinner, hx, rfl⟩
    · rintro ⟨inner, x, hinner, hx, rfl⟩
      exact ⟨x, ⟨inner, hinner, hx⟩, rfl⟩
  | null => simp [Setting.ofFields, eq_comm]
  | _ => simp [object, Setting.ofFields]

/-- The sections of a configuration. -/
def sections (fields : Table Setting) : Option Config := do
  if Shaped sectionNames fields then
    return ⟨← section_ fields "meta" metaSection, ← section_ fields "feature_map" mapSection,
      ← section_ fields "analysis" analysisSection,
      ← section_ fields "observability" observabilitySection⟩
  else none

/-- A whole configuration. -/
def config (v : Setting) : Option Config := object v >>= sections

theorem config_eq_some {v : Setting} {c : Config} :
    config v = some c ↔
      ∃ fields, v = .ofFields fields ∧ Shaped sectionNames fields ∧
        section_ fields "meta" metaSection = some c.meta_ ∧
        section_ fields "feature_map" mapSection = some c.featureMap ∧
        section_ fields "analysis" analysisSection = some c.analysis ∧
        section_ fields "observability" observabilitySection = some c.observability := by
  rw [config, Option.bind_eq_bind, Option.bind_eq_some_iff]
  refine exists_congr fun fields ↦ and_congr object_eq_some ?_
  rw [sections]
  split
  · next hs =>
    constructor
    · intro h
      obtain ⟨m, hm, h⟩ := Option.bind_eq_some_iff.mp h
      obtain ⟨f, hf, h⟩ := Option.bind_eq_some_iff.mp h
      obtain ⟨a, ha, h⟩ := Option.bind_eq_some_iff.mp h
      obtain ⟨o, ho, h⟩ := Option.bind_eq_some_iff.mp h
      obtain rfl := Option.some.inj h
      exact ⟨hs, hm, hf, ha, ho⟩
    · rintro ⟨-, hm, hf, ha, ho⟩
      rw [hm, hf, ha, ho]
      rfl
  · next hs => exact iff_of_false nofun fun h ↦ hs h.1

end Reading

namespace Check

variable {α β : Type}

instance grows_field (fields : Table Setting) (path key : String)
    (check : String → Setting → Check (Option α)) [∀ path v, Grows (check path v)] :
    Grows (field fields path key check) := by
  rw [field]
  split <;> infer_instance

theorem reads_field {check : String → Setting → Check (Option α)} {reading : Setting → Option α}
    (h : ∀ path v, Reads (check path v) (reading v)) {fields : Table Setting} {key : String}
    (hkey : (fields.lookup key).isSome) (path : String) :
    Reads (field fields path key check) (Reading.field fields key reading) := by
  obtain ⟨v, hv⟩ := Option.isSome_iff_exists.mp hkey
  rw [field, Reading.field, hv]
  exact h (below path key) v

/-- Behind the check of a shape the fields are there. -/
theorem reads_shaped {allowed : List String} {fields : Table Setting} {path : String}
    {rest : Check (Option α)} [hrest : Grows rest] {read : Option α}
    (h : (∀ k ∈ allowed, (fields.lookup k).isSome) → Reads rest read) :
    Reads (shape allowed path fields >>= fun _ ↦ rest)
      (if Reading.Shaped allowed fields then read else none) := by
  refine ⟨inferInstance, fun r ↦ ?_⟩
  rw [clean_bind]
  simp only [clean_shape]
  split
  · next hs => simp [hs, (h hs.2).clean r]
  · next hs => simp [hs]

instance (path : String) (v : Setting) : Grows (version path v) := (reads_version path v).grows

instance (path : String) (v : Setting) : Grows (globs path v) := (reads_globs path v).grows

instance (path : String) (v : Setting) : Grows (texts path v) := (reads_texts path v).grows

instance (path : String) (v : Setting) : Grows (pathText path v) := (reads_pathText path v).grows

instance (path : String) (v : Setting) : Grows (patterns path v) := (reads_patterns path v).grows

instance (path : String) (v : Setting) : Grows (integer 1 path v) := (reads_integer 1 path v).grows

instance (path : String) (v : Setting) : Grows (logLevel path v) := (reads_logLevel path v).grows

instance (path : String) (v : Setting) : Grows (logFile path v) := (reads_logFile path v).grows

theorem reads_metaSection (path : String) (fields : Table Setting) :
    Reads (metaSection path fields) (Reading.metaSection fields) := by
  refine reads_shaped fun hkeys ↦ ?_
  refine (reads_field reads_version (hkeys _ (by decide)) path).bind inferInstance fun n ↦ ?_
  exact reads_pure _

theorem reads_mapSection (path : String) (fields : Table Setting) :
    Reads (mapSection path fields) (Reading.mapSection fields) := by
  refine reads_shaped fun hkeys ↦ ?_
  refine (reads_field reads_globs (hkeys _ (by decide)) path).bind inferInstance fun included ↦ ?_
  refine (reads_field reads_texts (hkeys _ (by decide)) path).bind inferInstance fun excluded ↦ ?_
  refine (reads_field reads_pathText (hkeys _ (by decide)) path).bind inferInstance fun out ↦ ?_
  exact reads_pure _

theorem reads_analysisSection (path : String) (fields : Table Setting) :
    Reads (analysisSection path fields) (Reading.analysisSection fields) := by
  refine reads_shaped fun hkeys ↦ ?_
  refine (reads_field reads_pathText (hkeys _ (by decide)) path).bind inferInstance fun ts ↦ ?_
  refine (reads_field reads_patterns (hkeys _ (by decide)) path).bind inferInstance fun cs ↦ ?_
  refine (reads_field reads_patterns (hkeys _ (by decide)) path).bind inferInstance fun as ↦ ?_
  refine (reads_field reads_patterns (hkeys _ (by decide)) path).bind inferInstance fun ms ↦ ?_
  refine (reads_field (reads_integer 1) (hkeys _ (by decide)) path).bind inferInstance fun n ↦ ?_
  exact reads_pure _

theorem reads_observabilitySection (path : String) (fields : Table Setting) :
    Reads (observabilitySection path fields) (Reading.observabilitySection fields) := by
  refine reads_shaped fun hkeys ↦ ?_
  refine (reads_field reads_logLevel (hkeys _ (by decide)) path).bind inferInstance fun level ↦ ?_
  refine (reads_field reads_logFile (hkeys _ (by decide)) path).bind inferInstance fun file ↦ ?_
  exact reads_pure _

/-! ## Whole configurations -/

private theorem fieldsOf_cons_of_text?_eq_none {k : SettingKey} (hk : k.text? = none)
    (path : String) (v : Setting) (rest : List (SettingKey × Setting)) :
    fieldsOf path ((k, v) :: rest)
      = issue path ("object key must be string, got " ++ k.typeName) >>= fun _ ↦
          fieldsOf path rest := by
  cases k with
  | text s => cases hk
  | _ => rfl

instance grows_fieldsOf (path : String) (entries : List (SettingKey × Setting)) :
    Grows (fieldsOf path entries) := by
  induction entries with
  | nil => exact grows_pure []
  | cons e rest ih =>
    obtain ⟨k, v⟩ := e
    cases hk : k.text? with
    | none =>
      rw [fieldsOf_cons_of_text?_eq_none hk]
      infer_instance
    | some s =>
      rw [SettingKey.text?_eq_some.mp hk, fieldsOf]
      infer_instance

theorem clean_fieldsOf (path : String) (entries : List (SettingKey × Setting)) :
    ∀ fields, Clean (fieldsOf path entries) fields ↔ KeyOrder.textEntries? entries = some fields := by
  induction entries with
  | nil =>
    intro fields
    rw [fieldsOf, clean_pure, KeyOrder.textEntries?, Option.some.injEq, eq_comm]
  | cons e rest ih =>
    intro fields
    obtain ⟨k, v⟩ := e
    cases hk : k.text? with
    | none =>
      rw [fieldsOf_cons_of_text?_eq_none hk, clean_bind, KeyOrder.textEntries?, hk]
      simp [not_clean_issue]
    | some s =>
      rw [SettingKey.text?_eq_some.mp hk, fieldsOf, clean_bind]
      simp only [clean_pure, ih]
      constructor
      · rintro ⟨others, hothers, rfl⟩
        rw [KeyOrder.textEntries?, hothers]
        rfl
      · intro h
        obtain ⟨others, hothers, hfields⟩ := Option.bind_eq_some_iff.mp h
        exact ⟨others, hothers, (Option.some.inj hfields).symm⟩

theorem reads_object (path : String) (v : Setting) : Reads (object path v) (Reading.object v) := by
  cases v with
  | map entries =>
    refine ⟨inferInstanceAs (Grows (fieldsOf path entries >>= fun fields ↦ pure (some fields))),
      fun r ↦ ?_⟩
    rw [object, clean_bind]
    simp only [clean_fieldsOf, clean_pure, Reading.object, Option.map_eq_some_iff]
    exact exists_congr fun fields ↦ and_congr_right fun _ ↦ eq_comm
  | _ => exact reads_refuse _ _

/-- A section is passed over if it is missing or null, and read otherwise. -/
theorem gives_checkSection {check : String → Table Setting → Check (Option α)}
    {reading : Table Setting → Option α} (h : ∀ path fields, Reads (check path fields) (reading fields))
    (fields : Table Setting) (key : String) :
    Gives (checkSection fields key check) (Reading.section_ fields key reading) := by
  rw [checkSection, Reading.section_]
  cases fields.lookup key with
  | none => exact gives_pure none
  | some v =>
    cases v with
    | null => exact gives_pure none
    | _ => exact (reads_object key _).bind (grows_pure none) fun inner ↦ h key inner

private theorem gives_sections (fields : Table Setting) :
    Gives (shape Reading.sectionNames "" fields >>= fun _ ↦ do
        return {
          meta_ := ← checkSection fields "meta" metaSection
          featureMap := ← checkSection fields "feature_map" mapSection
          analysis := ← checkSection fields "analysis" analysisSection
          observability := ← checkSection fields "observability" observabilitySection })
      (Reading.sections fields) := by
  have hgives := (gives_shape Reading.sectionNames "" fields).bind fun _ ↦
    (gives_checkSection reads_metaSection fields "meta").bind fun meta_ ↦
    (gives_checkSection reads_mapSection fields "feature_map").bind fun featureMap ↦
    (gives_checkSection reads_analysisSection fields "analysis").bind fun analysis ↦
    (gives_checkSection reads_observabilitySection fields "observability").bind fun observability ↦
    gives_pure (⟨meta_, featureMap, analysis, observability⟩ : Config)
  rw [Reading.sections]
  split
  · next hs => rwa [if_pos hs] at hgives
  · next hs => rwa [if_neg hs] at hgives

theorem gives_root (v : Setting) : Gives (root v) (Reading.config v) :=
  (reads_object "<root>" v).gives_bind (grows_pure (⟨none, none, none, none⟩ : Config))
    gives_sections

end Check

/-- **Validation accepts what can be read.** A setting has no issues exactly if something is read of it,
and then that is its configuration. -/
theorem Config.validate_eq_ok_iff {v : Setting} {c : Config} :
    Config.validate v = .ok (.ok c) ↔ Reading.config v = some c := by
  rw [← (Check.gives_root v).clean, Config.validate, Check.Clean]
  cases (Check.root v).run [] with
  | error e => simp [bind, Except.bind]
  | ok p =>
    obtain ⟨c', issues⟩ := p
    cases issues with
    | nil => simp [bind, Except.bind, pure, Except.pure]
    | cons i issues => simp [bind, Except.bind, pure, Except.pure]

end FeatureAtlas
