import FeatureAtlas.Proofs.Config.Reading
import FeatureAtlas.Proofs.Text.Trim

/-!
# Legal configurations

Validation normalizes: it trims texts and raises log levels to upper case. Its results are to be *legal*, with
all four sections and each value in its normal form, and a legal configuration is to be its own result. Both
halves hold reading by reading: what is read is legal, and a legal value is read from its own form as itself.
Sections and configurations inherit this from their fields.

There is one exception. A section that is null has no fields to check and no issue either, so its
configuration lacks that section, and validating it again misses what was passed over before.
-/

namespace FeatureAtlas

/-! ## Legal values -/

namespace Config

/-- A trimmed text that is not empty. -/
def IsText (s : String) : Prop := Text.Trimmed s ∧ s ≠ ""

/-- A text that can be a path. -/
def IsPath (s : String) : Prop := IsText s ∧ '\x00' ∉ s.toList

/-- A text that is a pattern. -/
def IsPattern (s : String) : Prop := IsText s ∧ ∃ p, Pattern.compile s = .ok p

end Config

open Config

/-- The schema version is the one that is understood. -/
structure MetaSection.Legal (s : MetaSection) : Prop where
  schemaVersion : s.schemaVersion = 1

/-- There are files to read, and a place to write to. -/
structure MapSection.Legal (s : MapSection) : Prop where
  included_ne_nil : s.included ≠ []
  included : ∀ g ∈ s.included, IsText g
  excluded : ∀ g ∈ s.excluded, IsText g
  outputDir : IsPath s.outputDir

/-- The patterns are patterns, and something can be read at a time. -/
structure AnalysisSection.Legal (s : AnalysisSection) : Prop where
  tsconfig : IsPath s.tsconfig
  component : ∀ p ∈ s.patterns.component, IsPattern p
  action : ∀ p ∈ s.patterns.action, IsPattern p
  module : ∀ p ∈ s.patterns.module, IsPattern p
  readConcurrency : 1 ≤ s.readConcurrency

/-- The log level is one of the four, and the log file is empty or can be a path. -/
structure ObservabilitySection.Legal (s : ObservabilitySection) : Prop where
  logLevel : s.logLevel ∈ ["DEBUG", "INFO", "WARNING", "ERROR"]
  logFile : s.logFile = "" ∨ IsPath s.logFile

/-- A configuration that is written with all sections, each with its fields and legal values. -/
def Setting.LegalConfig (v : Setting) : Prop :=
  ∃ (m : MetaSection) (f : MapSection) (a : AnalysisSection) (o : ObservabilitySection),
    m.Legal ∧ f.Legal ∧ a.Legal ∧ o.Legal ∧
      v = .ofFields [("meta", .ofFields m.fields), ("feature_map", .ofFields f.fields),
        ("analysis", .ofFields a.fields), ("observability", .ofFields o.fields)]

namespace Reading

/-! ## Readings of legal values -/

/-- What is read is legal, and what is legal is read from its own form as itself. -/
structure Canonical {α : Type} (reading : Setting → Option α) (form : α → Setting)
    (Legal : α → Prop) : Prop where
  legal : ∀ {v x}, reading v = some x → Legal x
  fixed : ∀ {x}, Legal x → reading (form x) = some x

variable {α : Type} {reading : Setting → Option α} {form : α → Setting} {Legal : α → Prop}

/-- A test of what was read. -/
theorem Canonical.guard (h : Canonical reading form Legal) (p : α → Prop) [DecidablePred p] :
    Canonical (fun v ↦ do let x ← reading v; if p x then some x else none) form
      (fun x ↦ Legal x ∧ p x) where
  legal := by
    intro v x hx
    obtain ⟨y, hy, hite⟩ := Option.bind_eq_some_iff.mp hx
    split at hite
    · next hp =>
      obtain rfl := Option.some.inj hite
      exact ⟨h.legal hy, hp⟩
    · cases hite
  fixed := by
    rintro x ⟨hx, hp⟩
    rw [h.fixed hx]
    exact if_pos hp

theorem canonical_text : Canonical text .str IsText where
  legal := by
    intro v x h
    cases v with
    | str s =>
      rw [text] at h
      split at h
      · cases h
      · next hne =>
        obtain rfl := Option.some.inj h
        exact ⟨Text.trimmed_strip s, hne⟩
    | _ => cases h
  fixed := by
    rintro x ⟨htrim, hne⟩
    rw [text, Text.strip_of_trimmed htrim, if_neg hne]

theorem canonical_pathText : Canonical pathText .str IsPath :=
  canonical_text.guard fun s ↦ '\x00' ∉ s.toList

private theorem forall_isText_of_textList {xs : List Setting} :
    ∀ {ts : List String}, textList xs = some ts → ∀ t ∈ ts, IsText t := by
  induction xs with
  | nil =>
    intro ts h
    obtain rfl := Option.some.inj h
    simp
  | cons x xs ih =>
    intro ts h
    obtain ⟨t, ht, hrest⟩ := Option.bind_eq_some_iff.mp h
    obtain ⟨rest, hts, heq⟩ := Option.bind_eq_some_iff.mp hrest
    obtain rfl := Option.some.inj heq
    exact List.forall_mem_cons.mpr ⟨canonical_text.legal ht, ih hts⟩

private theorem textList_map_str {ts : List String} (h : ∀ t ∈ ts, IsText t) :
    textList (ts.map .str) = some ts := by
  induction ts with
  | nil => rfl
  | cons t ts ih =>
    obtain ⟨ht, hts⟩ := List.forall_mem_cons.mp h
    rw [List.map_cons, textList, canonical_text.fixed ht, ih hts]
    rfl

theorem canonical_texts : Canonical texts .strings (∀ t ∈ ·, IsText t) where
  legal := by
    intro v ts h
    obtain ⟨xs, -, hxs⟩ := Option.bind_eq_some_iff.mp h
    exact forall_isText_of_textList hxs
  fixed := fun h ↦ textList_map_str h

theorem canonical_globs : Canonical globs .strings (fun gs ↦ (∀ g ∈ gs, IsText g) ∧ gs ≠ []) :=
  canonical_texts.guard fun gs ↦ gs ≠ []

theorem canonical_patterns : Canonical patterns .strings (∀ p ∈ ·, IsPattern p) := by
  have hguard := canonical_texts.guard fun ps ↦ ps.all compiles = true
  have hlegal : ∀ ps : List String, ((∀ p ∈ ps, IsText p) ∧ ps.all compiles = true) ↔
      ∀ p ∈ ps, IsPattern p := by
    intro ps
    simp only [List.all_eq_true, compiles_iff, IsPattern, ← forall_and]
  exact ⟨fun h ↦ (hlegal _).mp (hguard.legal h), fun h ↦ hguard.fixed ((hlegal _).mpr h)⟩

theorem canonical_integer (minimum : Int) : Canonical (integer minimum) .int (minimum ≤ ·) where
  legal := by
    intro v n h
    cases v with
    | int m =>
      rw [integer] at h
      split at h
      · cases h
      · next hlt =>
        obtain rfl := Option.some.inj h
        exact Int.not_lt.mp hlt
    | _ => cases h
  fixed := by
    intro n h
    rw [integer, if_neg (Int.not_lt.mpr h)]

theorem canonical_version : Canonical version .int (fun n ↦ 1 ≤ n ∧ n = schemaVersion) :=
  (canonical_integer 1).guard fun n ↦ n = schemaVersion

theorem canonical_logLevel : Canonical logLevel .str (· ∈ logLevels) where
  legal := by
    intro v s h
    cases v with
    | str t => exact ((canonical_text.guard (· ∈ logLevels)).legal h).2
    | _ => cases h
  fixed := by
    -- the four levels are in upper case
    have hfixed : ∀ s ∈ logLevels, logLevel (.str s) = some s := by decide
    intro s hs
    exact hfixed s hs

theorem canonical_logFile : Canonical logFile .str (fun s ↦ s = "" ∨ IsPath s) where
  legal := by
    intro v s h
    cases v with
    | str t =>
      rw [logFile] at h
      split at h
      · exact Or.inl (Option.some.inj h).symm
      · exact Or.inr (canonical_pathText.legal h)
    | _ => cases h
  fixed := by
    rintro s (rfl | h)
    · rfl
    · rw [logFile, Text.strip_of_trimmed h.1.1, if_neg h.1.2]
      exact canonical_pathText.fixed h

/-! ## Sections -/

theorem legal_of_field (h : Canonical reading form Legal) {fields : Table Setting} {key : String}
    {x : α} (hx : field fields key reading = some x) : Legal x := by
  obtain ⟨v, -, hv⟩ := Option.bind_eq_some_iff.mp hx
  exact h.legal hv

theorem field_of_lookup {fields : Table Setting} {key : String} {v : Setting}
    (h : fields.lookup key = some v) (reading : Setting → Option α) :
    field fields key reading = reading v := by
  rw [field, h]
  rfl

theorem legal_of_metaSection {fields : Table Setting} {s : MetaSection}
    (h : metaSection fields = some s) : s.Legal := by
  obtain ⟨-, hversion⟩ := metaSection_eq_some.mp h
  exact ⟨(legal_of_field canonical_version hversion).2⟩

theorem metaSection_fields {s : MetaSection} (h : s.Legal) : metaSection s.fields = some s := by
  refine metaSection_eq_some.mpr ⟨by simp [Shaped, MetaSection.fields], ?_⟩
  refine (field_of_lookup (v := .int s.schemaVersion) rfl _).trans (canonical_version.fixed ?_)
  exact ⟨Int.le_of_eq h.schemaVersion.symm, h.schemaVersion⟩

theorem legal_of_mapSection {fields : Table Setting} {s : MapSection}
    (h : mapSection fields = some s) : s.Legal := by
  obtain ⟨-, hincluded, hexcluded, houtputDir⟩ := mapSection_eq_some.mp h
  have hglobs := legal_of_field canonical_globs hincluded
  exact ⟨hglobs.2, hglobs.1, legal_of_field canonical_texts hexcluded,
    legal_of_field canonical_pathText houtputDir⟩

theorem mapSection_fields {s : MapSection} (h : s.Legal) : mapSection s.fields = some s := by
  refine mapSection_eq_some.mpr ⟨by simp [Shaped, MapSection.fields], ?_, ?_, ?_⟩
  · exact (field_of_lookup (v := .strings s.included) rfl _).trans
      (canonical_globs.fixed ⟨h.included, h.included_ne_nil⟩)
  · exact (field_of_lookup (v := .strings s.excluded) rfl _).trans (canonical_texts.fixed h.excluded)
  · exact (field_of_lookup (v := .str s.outputDir) rfl _).trans (canonical_pathText.fixed h.outputDir)

theorem legal_of_analysisSection {fields : Table Setting} {s : AnalysisSection}
    (h : analysisSection fields = some s) : s.Legal := by
  obtain ⟨-, htsconfig, hcomponent, haction, hmodule, hreadConcurrency⟩ :=
    analysisSection_eq_some.mp h
  exact ⟨legal_of_field canonical_pathText htsconfig, legal_of_field canonical_patterns hcomponent,
    legal_of_field canonical_patterns haction, legal_of_field canonical_patterns hmodule,
    legal_of_field (canonical_integer 1) hreadConcurrency⟩

theorem analysisSection_fields {s : AnalysisSection} (h : s.Legal) :
    analysisSection s.fields = some s := by
  refine analysisSection_eq_some.mpr
    ⟨by simp [Shaped, AnalysisSection.fields], ?_, ?_, ?_, ?_, ?_⟩
  · exact (field_of_lookup (v := .str s.tsconfig) rfl _).trans (canonical_pathText.fixed h.tsconfig)
  · exact (field_of_lookup (v := .strings s.patterns.component) rfl _).trans
      (canonical_patterns.fixed h.component)
  · exact (field_of_lookup (v := .strings s.patterns.action) rfl _).trans
      (canonical_patterns.fixed h.action)
  · exact (field_of_lookup (v := .strings s.patterns.module) rfl _).trans
      (canonical_patterns.fixed h.module)
  · exact (field_of_lookup (v := .int s.readConcurrency) rfl _).trans
      ((canonical_integer 1).fixed h.readConcurrency)

theorem legal_of_observabilitySection {fields : Table Setting} {s : ObservabilitySection}
    (h : observabilitySection fields = some s) : s.Legal := by
  obtain ⟨-, hlogLevel, hlogFile⟩ := observabilitySection_eq_some.mp h
  exact ⟨legal_of_field canonical_logLevel hlogLevel, legal_of_field canonical_logFile hlogFile⟩

theorem observabilitySection_fields {s : ObservabilitySection} (h : s.Legal) :
    observabilitySection s.fields = some s := by
  refine observabilitySection_eq_some.mpr ⟨by simp [Shaped, ObservabilitySection.fields], ?_, ?_⟩
  · exact (field_of_lookup (v := .str s.logLevel) rfl _).trans (canonical_logLevel.fixed h.logLevel)
  · exact (field_of_lookup (v := .str s.logFile) rfl _).trans (canonical_logFile.fixed h.logFile)

/-! ## Configurations -/

theorem isSome_of_section {fields : Table Setting} {key : String}
    {reading : Table Setting → Option α} {r : Option α} (hkey : (fields.lookup key).isSome)
    (h : section_ fields key reading = some r) :
    fields.lookup key ≠ some .null ↔ r.isSome = true := by
  rcases (section_eq_some hkey).mp h with ⟨hnull, rfl⟩ | ⟨inner, x, hinner, -, rfl⟩
  · simp [hnull]
  · simp [hinner, Setting.ofFields]

theorem exists_of_section {fields : Table Setting} {key : String}
    {reading : Table Setting → Option α} {x : α} (hkey : (fields.lookup key).isSome)
    (h : section_ fields key reading = some (some x)) : ∃ inner, reading inner = some x := by
  rcases (section_eq_some hkey).mp h with ⟨-, hr⟩ | ⟨inner, y, -, hy, hr⟩
  · cases hr
  · exact ⟨inner, by rw [hy, hr]⟩

theorem section_ofFields {fields inner : Table Setting} {key : String}
    {reading : Table Setting → Option α} {x : α}
    (hkey : fields.lookup key = some (.ofFields inner)) (h : reading inner = some x) :
    section_ fields key reading = some (some x) :=
  (section_eq_some (by rw [hkey]; rfl)).mpr (Or.inr ⟨inner, x, hkey, h, rfl⟩)

end Reading

namespace Config

private theorem find?_filterMap {sections : Table (Option Setting)} (h : sections.NodupKeys)
    (key : String) :
    Setting.find? (.text key) (sections.filterMap fun e ↦ e.2.map fun s ↦ (.text e.1, s))
      = (sections.lookup key).join := by
  induction sections with
  | nil => rfl
  | cons e rest ih =>
    obtain ⟨k, r⟩ := e
    obtain ⟨hk, hrest⟩ := List.nodup_cons.mp h
    rw [List.lookup_cons, List.filterMap_cons]
    by_cases hkey : key = k
    · subst hkey
      rw [beq_self_eq_true]
      cases r with
      | none =>
        -- a section that is absent is not found further on
        have hnone : rest.lookup key = none := by
          rw [List.lookup_eq_none_iff]
          intro e he
          rw [bne_iff_ne]
          intro heq
          exact hk (List.mem_map.mpr ⟨e, he, heq.symm⟩)
        simpa [hnone] using ih hrest
      | some s => simp [Setting.find?_cons]
    · rw [beq_eq_false_iff_ne.mpr hkey]
      cases r with
      | none => exact ih hrest
      | some s =>
        rw [Option.map_some, Setting.find?_cons, if_neg (by simpa using Ne.symm hkey)]
        exact ih hrest

theorem field?_toSetting (c : Config) (key : String) :
    c.toSetting.field? key = (c.sections.lookup key).join :=
  find?_filterMap (by simp [Table.NodupKeys, sections]) key

theorem mem_entries {c : Config} {s : String} {v : Setting} :
    (.text s, v) ∈ c.entries ↔ (s, some v) ∈ c.sections := by
  rw [entries, List.mem_filterMap]
  constructor
  · rintro ⟨⟨k, r⟩, hmem, hr⟩
    obtain ⟨w, rfl, heq⟩ := Option.map_eq_some_iff.mp hr
    simp only [Prod.mk.injEq, SettingKey.text.injEq] at heq
    obtain ⟨rfl, rfl⟩ := heq
    exact hmem
  · exact fun hmem ↦ ⟨(s, some v), hmem, rfl⟩

theorem exists_ofFields_of_mem_sections {c : Config} {s : String} {v : Setting}
    (h : (s, some v) ∈ c.sections) : ∃ inner, v = .ofFields inner := by
  simp only [sections, List.mem_cons, Prod.mk.injEq, List.not_mem_nil, or_false,
    eq_comm (a := some v), Option.map_eq_some_iff] at h
  rcases h with ⟨-, x, -, rfl⟩ | ⟨-, x, -, rfl⟩ | ⟨-, x, -, rfl⟩ | ⟨-, x, -, rfl⟩ <;>
  exact ⟨x.fields, rfl⟩

/-- No section is absent. -/
def Complete (c : Config) : Prop :=
  c.meta_.isSome = true ∧ c.featureMap.isSome = true ∧ c.analysis.isSome = true ∧
    c.observability.isSome = true

theorem complete_iff_field? {c : Config} :
    c.Complete ↔ ∀ key ∈ Reading.sectionNames, (c.toSetting.field? key).isSome = true := by
  simp [Complete, Reading.sectionNames, field?_toSetting, sections, List.lookup_cons]

/-- Null sections are the ones that get lost. -/
theorem complete_iff_no_null {v : Setting} {c : Config} (h : Reading.config v = some c) :
    c.Complete ↔ ∀ key ∈ Reading.sectionNames, v.field? key ≠ some .null := by
  obtain ⟨fields, rfl, hshape, hm, hf, ha, ho⟩ := Reading.config_eq_some.mp h
  have hthere := hshape.2
  rw [Complete, ← Reading.isSome_of_section (hthere _ (by decide)) hm,
    ← Reading.isSome_of_section (hthere _ (by decide)) hf,
    ← Reading.isSome_of_section (hthere _ (by decide)) ha,
    ← Reading.isSome_of_section (hthere _ (by decide)) ho]
  simp [Reading.sectionNames, Setting.field?_ofFields]

theorem exists_legal_of_complete {v : Setting} {c : Config} (h : Reading.config v = some c)
    (hc : c.Complete) :
    ∃ m f a o, c = ⟨some m, some f, some a, some o⟩ ∧
      m.Legal ∧ f.Legal ∧ a.Legal ∧ o.Legal := by
  obtain ⟨fields, -, hshape, hm, hf, ha, ho⟩ := Reading.config_eq_some.mp h
  obtain ⟨m, f, a, o⟩ := c
  simp only [Complete, Option.isSome_iff_exists] at hc
  obtain ⟨⟨m, rfl⟩, ⟨f, rfl⟩, ⟨a, rfl⟩, ⟨o, rfl⟩⟩ := hc
  have hthere := hshape.2
  obtain ⟨_, hm⟩ := Reading.exists_of_section (hthere _ (by decide)) hm
  obtain ⟨_, hf⟩ := Reading.exists_of_section (hthere _ (by decide)) hf
  obtain ⟨_, ha⟩ := Reading.exists_of_section (hthere _ (by decide)) ha
  obtain ⟨_, ho⟩ := Reading.exists_of_section (hthere _ (by decide)) ho
  exact ⟨m, f, a, o, rfl, Reading.legal_of_metaSection hm, Reading.legal_of_mapSection hf,
    Reading.legal_of_analysisSection ha, Reading.legal_of_observabilitySection ho⟩

/-- A legal configuration is read as itself. -/
theorem config_toSetting {m : MetaSection} {f : MapSection} {a : AnalysisSection}
    {o : ObservabilitySection} (hm : m.Legal) (hf : f.Legal) (ha : a.Legal) (ho : o.Legal) :
    Reading.config (toSetting ⟨some m, some f, some a, some o⟩)
      = some ⟨some m, some f, some a, some o⟩ := by
  refine Reading.config_eq_some.mpr ⟨[("meta", .ofFields m.fields),
    ("feature_map", .ofFields f.fields), ("analysis", .ofFields a.fields),
    ("observability", .ofFields o.fields)], rfl, ?_, ?_, ?_, ?_, ?_⟩
  · simp [Reading.Shaped, Reading.sectionNames]
  · exact Reading.section_ofFields rfl (Reading.metaSection_fields hm)
  · exact Reading.section_ofFields rfl (Reading.mapSection_fields hf)
  · exact Reading.section_ofFields rfl (Reading.analysisSection_fields ha)
  · exact Reading.section_ofFields rfl (Reading.observabilitySection_fields ho)

theorem complete_of_legalConfig {c : Config} (h : c.toSetting.LegalConfig) : c.Complete := by
  obtain ⟨m, f, a, o, -, -, -, -, heq⟩ := h
  rw [complete_iff_field?, heq]
  simp [Reading.sectionNames, Setting.field?_ofFields, List.lookup_cons]

theorem complete_of_config_toSetting {c d : Config} (h : Reading.config c.toSetting = some d) :
    c.Complete := by
  obtain ⟨fields, heq, hshape, -⟩ := Reading.config_eq_some.mp h
  rw [complete_iff_field?, heq]
  simpa only [Setting.field?_ofFields] using hshape.2

/-- **Accepted configurations are legal fixpoints unless a section was null.** Of a setting without issues,
the normalized configuration has all sections with their fields and legal values exactly if no section of
the setting is null; and exactly then validating it again gives it back. -/
theorem accepted_legal_fixpoint_iff {v : Setting} {c : Config}
    (h : validate v = .ok (.ok c)) :
    ((∀ key ∈ Reading.sectionNames, v.field? key ≠ some .null) ↔ c.toSetting.LegalConfig) ∧
      ((∀ key ∈ Reading.sectionNames, v.field? key ≠ some .null) ↔
        validate c.toSetting = .ok (.ok c)) := by
  rw [validate_eq_ok_iff] at h ⊢
  rw [← complete_iff_no_null h]
  refine ⟨⟨fun hc ↦ ?_, complete_of_legalConfig⟩, ⟨fun hc ↦ ?_, complete_of_config_toSetting⟩⟩
  · obtain ⟨m, f, a, o, rfl, hm, hf, ha, ho⟩ := exists_legal_of_complete h hc
    exact ⟨m, f, a, o, hm, hf, ha, ho, rfl⟩
  · obtain ⟨m, f, a, o, rfl, hm, hf, ha, ho⟩ := exists_legal_of_complete h hc
    exact config_toSetting hm hf ha ho

/-- A configuration with blanks around its texts. -/
def untrimmed : Setting := .ofFields
  [("observability", .ofFields [("log_file", .str "  "), ("log_level", .str " info")]),
   ("analysis", .ofFields
      [("tsconfig", .str "tsconfig.json "), ("read_concurrency", .int 8),
       ("component_patterns", .strings ["^ui/ "]), ("action_patterns", .list []),
       ("module_patterns", .bytes [])]),
   ("feature_map", .ofFields
      [("include", .strings [" src/*.ts"]), ("exclude", .list []), ("output_dir", .str "docs\n")]),
   ("meta", .ofFields [("schema_version", .int 1)])]

/-- The same configuration in its normal form. -/
def trimmed : Config :=
  ⟨some ⟨1⟩, some ⟨["src/*.ts"], [], "docs"⟩, some ⟨"tsconfig.json", ⟨["^ui/"], [], []⟩, 8⟩,
    some ⟨"INFO", ""⟩⟩

theorem accepted_legal_fixpoint_untrimmed :
    validate untrimmed = .ok (.ok trimmed) ∧ trimmed.toSetting.LegalConfig ∧
      validate trimmed.toSetting = .ok (.ok trimmed) := by
  have hread : Reading.config untrimmed = some trimmed := rfl
  have h : validate untrimmed = .ok (.ok trimmed) := validate_eq_ok_iff.mpr hread
  have hnull := (complete_iff_no_null hread).mp ⟨rfl, rfl, rfl, rfl⟩
  have hiff := accepted_legal_fixpoint_iff h
  exact ⟨h, hiff.1.mp hnull, hiff.2.mp hnull⟩

/-- A configuration whose last section is null. -/
def unobserved : Setting := .ofFields
  [("meta", .ofFields [("schema_version", .int 1)]),
   ("feature_map", .ofFields
      [("include", .strings ["src/*.ts"]), ("exclude", .list []), ("output_dir", .str "docs")]),
   ("analysis", .ofFields
      [("tsconfig", .str "tsconfig.json"), ("read_concurrency", .int 8),
       ("component_patterns", .list []), ("action_patterns", .list []),
       ("module_patterns", .list [])]),
   ("observability", .null)]

theorem null_section_not_fixpoint :
    ∃ c, validate unobserved = .ok (.ok c) ∧ ¬c.toSetting.LegalConfig ∧
      validate c.toSetting ≠ .ok (.ok c) := by
  refine ⟨⟨some ⟨1⟩, some ⟨["src/*.ts"], [], "docs"⟩, some ⟨"tsconfig.json", ⟨[], [], []⟩, 8⟩, none⟩,
    validate_eq_ok_iff.mpr rfl, fun h ↦ ?_, fun h ↦ ?_⟩
  · exact absurd (complete_of_legalConfig h).2.2.2 (by decide)
  · exact absurd (complete_of_config_toSetting (validate_eq_ok_iff.mp h)).2.2.2 (by decide)

end Config

end FeatureAtlas
