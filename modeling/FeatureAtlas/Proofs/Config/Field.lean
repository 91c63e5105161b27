import FeatureAtlas.Config.Override
import FeatureAtlas.Proofs.Config.Legal
import FeatureAtlas.Proofs.Config.Overlay

/-!
# The fields of a configuration

A field is one setting of the schema: it has a place in a section, a command line option and an environment
variable, and a normal form that validation gives its values. Everything that happens to a configuration on
its way through the layers is told field by field here: validation takes a field to its normal form, a second
time changes nothing, and merging takes the value of the overlay if there is one and keeps that of the base
otherwise.
-/

namespace FeatureAtlas.Config

/-- A setting of the schema. -/
inductive Field where
  | schemaVersion
  | included
  | excluded
  | outputDir
  | tsconfig
  | componentPatterns
  | actionPatterns
  | modulePatterns
  | readConcurrency
  | logLevel
  | logFile
deriving DecidableEq, Repr

namespace Field

/-- The section of a field and its name there. -/
def place : Field → String × String
  | schemaVersion => ("meta", "schema_version")
  | included => ("feature_map", "include")
  | excluded => ("feature_map", "exclude")
  | outputDir => ("feature_map", "output_dir")
  | tsconfig => ("analysis", "tsconfig")
  | componentPatterns => ("analysis", "component_patterns")
  | actionPatterns => ("analysis", "action_patterns")
  | modulePatterns => ("analysis", "module_patterns")
  | readConcurrency => ("analysis", "read_concurrency")
  | logLevel => ("observability", "log_level")
  | logFile => ("observability", "log_file")

/-- The path of a field. -/
def path (f : Field) : List String := [f.place.1, f.place.2]

/-- The command line option of a field. -/
def option (f : Field) : String := f.place.1 ++ "." ++ f.place.2

/-- The environment variable of a field. -/
def variableName (f : Field) : String := Override.variableName f.path

/-- The kind of a field's values. -/
def kind : Field → OverrideKind
  | schemaVersion => .integer
  | included => .list
  | excluded => .list
  | outputDir => .text
  | tsconfig => .text
  | componentPatterns => .list
  | actionPatterns => .list
  | modulePatterns => .list
  | readConcurrency => .integer
  | logLevel => .text
  | logFile => .text

/-- The validated form of a value: texts are trimmed and log levels are in upper case. -/
def normal? : Field → Setting → Option Setting
  | schemaVersion, v => (Reading.version v).map .int
  | included, v => (Reading.globs v).map .strings
  | excluded, v => (Reading.texts v).map .strings
  | outputDir, v => (Reading.pathText v).map .str
  | tsconfig, v => (Reading.pathText v).map .str
  | componentPatterns, v => (Reading.patterns v).map .strings
  | actionPatterns, v => (Reading.patterns v).map .strings
  | modulePatterns, v => (Reading.patterns v).map .strings
  | readConcurrency, v => (Reading.integer 1 v).map .int
  | logLevel, v => (Reading.logLevel v).map .str
  | logFile, v => (Reading.logFile v).map .str

/-- The value that a configuration has. -/
def value? : Field → Config → Option Setting
  | schemaVersion, c => c.meta_.map fun s ↦ .int s.schemaVersion
  | included, c => c.featureMap.map fun s ↦ .strings s.included
  | excluded, c => c.featureMap.map fun s ↦ .strings s.excluded
  | outputDir, c => c.featureMap.map fun s ↦ .str s.outputDir
  | tsconfig, c => c.analysis.map fun s ↦ .str s.tsconfig
  | componentPatterns, c => c.analysis.map fun s ↦ .strings s.patterns.component
  | actionPatterns, c => c.analysis.map fun s ↦ .strings s.patterns.action
  | modulePatterns, c => c.analysis.map fun s ↦ .strings s.patterns.module
  | readConcurrency, c => c.analysis.map fun s ↦ .int s.readConcurrency
  | logLevel, c => c.observability.map fun s ↦ .str s.logLevel
  | logFile, c => c.observability.map fun s ↦ .str s.logFile

/-- All fields. -/
def all : List Field :=
  [schemaVersion, included, excluded, outputDir, tsconfig, componentPatterns, actionPatterns,
   modulePatterns, readConcurrency, logLevel, logFile]

theorem mem_all (f : Field) : f ∈ all := by cases f <;> decide

theorem variableName_inj {f g : Field} (h : f.variableName = g.variableName) : f = g := by
  have hfind : ∀ f ∈ all, all.find? (fun g ↦ g.variableName == f.variableName) = some f := by
    decide +kernel
  have hf := hfind f (mem_all f)
  rw [h, hfind g (mem_all g)] at hf
  exact (Option.some.inj hf).symm

theorem place_inj {f g : Field} (h : f.place = g.place) : f = g :=
  variableName_inj (by rw [variableName, path, h, ← path, ← variableName])

theorem atPath?_path (f : Field) (v : Setting) :
    Setting.atPath? f.path v = (v.field? f.place.1).bind (Setting.field? f.place.2) := by
  rw [path, Setting.atPath?, Option.bind_eq_bind]
  congr 1
  funext w
  rw [Setting.atPath?, Option.bind_eq_bind]
  cases w.field? f.place.2 <;> rfl

theorem atPath?_toSetting (f : Field) (c : Config) :
    Setting.atPath? f.path c.toSetting = f.value? c := by
  rw [atPath?_path, field?_toSetting]
  obtain ⟨m, p, a, o⟩ := c
  cases f with
  | schemaVersion => cases m <;> rfl
  | included => cases p <;> rfl
  | excluded => cases p <;> rfl
  | outputDir => cases p <;> rfl
  | logLevel => cases o <;> rfl
  | logFile => cases o <;> rfl
  | _ => cases a <;> rfl

theorem isSome_value? {c : Config} (h : c.Complete) (f : Field) : (f.value? c).isSome = true := by
  obtain ⟨hm, hp, ha, ho⟩ := h
  cases f <;> rwa [value?, Option.isSome_map]

theorem kind?_value? {f : Field} {c : Config} {v : Setting} (h : f.value? c = some v) :
    Override.kind? v = some f.kind := by
  cases f <;>
  · obtain ⟨s, -, rfl⟩ := Option.map_eq_some_iff.mp h
    rfl

/-- The fields of a configuration are what stands in its sections. -/
theorem mem_sections_iff {c : Config} {s name : String} {v : Setting} :
    (∃ inner : Table Setting, (s, some (.ofFields inner)) ∈ c.sections ∧ (name, v) ∈ inner) ↔
      ∃ f : Field, (s, name) = f.place ∧ f.value? c = some v := by
  constructor
  · rintro ⟨inner, hs, hname⟩
    simp only [sections, List.mem_cons, Prod.mk.injEq, List.not_mem_nil, or_false,
      eq_comm (a := some _), Option.map_eq_some_iff] at hs
    rcases hs with ⟨rfl, x, hx, heq⟩ | ⟨rfl, x, hx, heq⟩ | ⟨rfl, x, hx, heq⟩ | ⟨rfl, x, hx, heq⟩
    · obtain rfl := Setting.ofFields_inj heq
      simp only [MetaSection.fields, List.mem_cons, Prod.mk.injEq, List.not_mem_nil,
        or_false] at hname
      obtain ⟨rfl, rfl⟩ := hname
      exact ⟨.schemaVersion, rfl, by rw [value?, hx]; rfl⟩
    · obtain rfl := Setting.ofFields_inj heq
      simp only [MapSection.fields, List.mem_cons, Prod.mk.injEq, List.not_mem_nil,
        or_false] at hname
      rcases hname with ⟨rfl, rfl⟩ | ⟨rfl, rfl⟩ | ⟨rfl, rfl⟩
      · exact ⟨.included, rfl, by rw [value?, hx]; rfl⟩
      · exact ⟨.excluded, rfl, by rw [value?, hx]; rfl⟩
      · exact ⟨.outputDir, rfl, by rw [value?, hx]; rfl⟩
    · obtain rfl := Setting.ofFields_inj heq
      simp only [AnalysisSection.fields, List.mem_cons, Prod.mk.injEq, List.not_mem_nil,
        or_false] at hname
      rcases hname with ⟨rfl, rfl⟩ | ⟨rfl, rfl⟩ | ⟨rfl, rfl⟩ | ⟨rfl, rfl⟩ | ⟨rfl, rfl⟩
      · exact ⟨.tsconfig, rfl, by rw [value?, hx]; rfl⟩
      · exact ⟨.componentPatterns, rfl, by rw [value?, hx]; rfl⟩
      · exact ⟨.actionPatterns, rfl, by rw [value?, hx]; rfl⟩
      · exact ⟨.modulePatterns, rfl, by rw [value?, hx]; rfl⟩
      · exact ⟨.readConcurrency, rfl, by rw [value?, hx]; rfl⟩
    · obtain rfl := Setting.ofFields_inj heq
      simp only [ObservabilitySection.fields, List.mem_cons, Prod.mk.injEq, List.not_mem_nil,
        or_false] at hname
      rcases hname with ⟨rfl, rfl⟩ | ⟨rfl, rfl⟩
      · exact ⟨.logLevel, rfl, by rw [value?, hx]; rfl⟩
      · exact ⟨.logFile, rfl, by rw [value?, hx]; rfl⟩
  · rintro ⟨f, hplace, hv⟩
    cases f <;>
    · obtain ⟨x, hx, rfl⟩ := Option.map_eq_some_iff.mp hv
      obtain ⟨rfl, rfl⟩ := Prod.mk.inj hplace
      refine ⟨x.fields, ?_, ?_⟩
      · simp [sections, hx]
      · simp [MetaSection.fields, MapSection.fields, AnalysisSection.fields,
          ObservabilitySection.fields]

/-! ## Normal forms -/

private theorem normal_idem {α : Type} {reading : Setting → Option α} {form : α → Setting}
    {Legal : α → Prop} (h : Reading.Canonical reading form Legal) {v x : Setting}
    (hx : (reading v).map form = some x) : (reading x).map form = some x := by
  obtain ⟨y, hy, rfl⟩ := Option.map_eq_some_iff.mp hx
  rw [h.fixed (h.legal hy), Option.map_some]

/-- A normal form is its own normal form. -/
theorem normal?_of_normal? {f : Field} {v x : Setting} (h : f.normal? v = some x) :
    f.normal? x = some x := by
  cases f with
  | schemaVersion => exact normal_idem Reading.canonical_version h
  | included => exact normal_idem Reading.canonical_globs h
  | excluded => exact normal_idem Reading.canonical_texts h
  | outputDir => exact normal_idem Reading.canonical_pathText h
  | tsconfig => exact normal_idem Reading.canonical_pathText h
  | readConcurrency => exact normal_idem (Reading.canonical_integer 1) h
  | logLevel => exact normal_idem Reading.canonical_logLevel h
  | logFile => exact normal_idem Reading.canonical_logFile h
  | _ => exact normal_idem Reading.canonical_patterns h

private theorem text_copy (v : Setting) : Reading.text v.copy = Reading.text v := by
  cases v <;> rfl

private theorem textList_copyItems (xs : List Setting) :
    Reading.textList (Setting.copyItems xs) = Reading.textList xs := by
  induction xs with
  | nil => rfl
  | cons x xs ih => rw [Setting.copyItems, Reading.textList, Reading.textList, text_copy, ih]

private theorem texts_copy (v : Setting) : Reading.texts v.copy = Reading.texts v := by
  cases v with
  | list xs =>
    rw [Setting.copy]
    exact textList_copyItems xs
  | _ => rfl

/-- A copy has the normal form of the original. -/
theorem normal?_copy (f : Field) (v : Setting) : f.normal? v.copy = f.normal? v := by
  cases f with
  | included => rw [normal?, normal?, Reading.globs, Reading.globs, texts_copy]
  | excluded => rw [normal?, normal?, texts_copy]
  | componentPatterns => rw [normal?, normal?, Reading.patterns, Reading.patterns, texts_copy]
  | actionPatterns => rw [normal?, normal?, Reading.patterns, Reading.patterns, texts_copy]
  | modulePatterns => rw [normal?, normal?, Reading.patterns, Reading.patterns, texts_copy]
  | _ => cases v <;> rfl

theorem normal?_map (f : Field) (es : List (SettingKey × Setting)) :
    f.normal? (.map es) = none := by
  cases f <;> rfl

/-! ## Validation -/

private theorem value_of_section {α : Type} {fields : Table Setting} {key : String}
    {reading : Table Setting → Option α} {r : Option α} (hkey : (fields.lookup key).isSome)
    (h : Reading.section_ fields key reading = some r) {name : String}
    {normal? : Setting → Option Setting} {value : α → Setting}
    (hvalue : ∀ inner x, reading inner = some x → (inner.lookup name).bind normal? = some (value x)) :
    ((fields.lookup key).bind (Setting.field? name)).bind normal? = r.map value := by
  rcases (Reading.section_eq_some hkey).mp h with ⟨hnull, rfl⟩ | ⟨inner, x, hinner, hx, rfl⟩
  · rw [hnull]
    rfl
  · rw [hinner, Option.bind_some, Setting.field?_ofFields, hvalue inner x hx, Option.map_some]

private theorem bind_of_field {α : Type} {inner : Table Setting} {name : String}
    {reading : Setting → Option α} {x : α} (h : Reading.field inner name reading = some x)
    (form : α → Setting) :
    (inner.lookup name).bind (fun v ↦ (reading v).map form) = some (form x) := by
  obtain ⟨v, hv, hx⟩ := Option.bind_eq_some_iff.mp h
  rw [hv, Option.bind_some, hx, Option.map_some]

/-- **Validation takes each field to its normal form.** -/
theorem value?_of_config {v : Setting} {c : Config} (h : Reading.config v = some c) (f : Field) :
    f.value? c = (Setting.atPath? f.path v).bind f.normal? := by
  obtain ⟨fields, rfl, hshape, hm, hp, ha, ho⟩ := Reading.config_eq_some.mp h
  have hthere := hshape.2
  rw [atPath?_path, Setting.field?_ofFields]
  symm
  cases f with
  | schemaVersion =>
    refine value_of_section (hthere _ (by decide)) hm fun inner s hs ↦ ?_
    exact bind_of_field (Reading.metaSection_eq_some.mp hs).2 _
  | included =>
    refine value_of_section (hthere _ (by decide)) hp fun inner s hs ↦ ?_
    exact bind_of_field (Reading.mapSection_eq_some.mp hs).2.1 _
  | excluded =>
    refine value_of_section (hthere _ (by decide)) hp fun inner s hs ↦ ?_
    exact bind_of_field (Reading.mapSection_eq_some.mp hs).2.2.1 _
  | outputDir =>
    refine value_of_section (hthere _ (by decide)) hp fun inner s hs ↦ ?_
    exact bind_of_field (Reading.mapSection_eq_some.mp hs).2.2.2 _
  | tsconfig =>
    refine value_of_section (hthere _ (by decide)) ha fun inner s hs ↦ ?_
    exact bind_of_field (Reading.analysisSection_eq_some.mp hs).2.1 _
  | componentPatterns =>
    refine value_of_section (hthere _ (by decide)) ha fun inner s hs ↦ ?_
    exact bind_of_field (Reading.analysisSection_eq_some.mp hs).2.2.1 _
  | actionPatterns =>
    refine value_of_section (hthere _ (by decide)) ha fun inner s hs ↦ ?_
    exact bind_of_field (Reading.analysisSection_eq_some.mp hs).2.2.2.1 _
  | modulePatterns =>
    refine value_of_section (hthere _ (by decide)) ha fun inner s hs ↦ ?_
    exact bind_of_field (Reading.analysisSection_eq_some.mp hs).2.2.2.2.1 _
  | readConcurrency =>
    refine value_of_section (hthere _ (by decide)) ha fun inner s hs ↦ ?_
    exact bind_of_field (Reading.analysisSection_eq_some.mp hs).2.2.2.2.2 _
  | logLevel =>
    refine value_of_section (hthere _ (by decide)) ho fun inner s hs ↦ ?_
    exact bind_of_field (Reading.observabilitySection_eq_some.mp hs).2.1 _
  | logFile =>
    refine value_of_section (hthere _ (by decide)) ho fun inner s hs ↦ ?_
    exact bind_of_field (Reading.observabilitySection_eq_some.mp hs).2.2 _

/-! ## Merging -/

theorem normal?_of_overlaid (f : Field) {existing change result : Option Setting}
    (h : Setting.Overlaid existing change result) :
    result.bind f.normal? = (change.or existing).bind f.normal? := by
  cases change with
  | none => rw [h, Option.none_or]
  | some v =>
    obtain ⟨r, hr, rfl⟩ := h
    rw [Option.some_or, Option.bind_some, Option.bind_some]
    cases v with
    | map es =>
      obtain ⟨out, rfl⟩ := Setting.exists_map_of_overlay hr
      rw [normal?_map, normal?_map]
    | _ =>
      obtain rfl := Except.ok.inj hr
      exact normal?_copy f _

/-- **Merging takes the value of the overlay, or else that of the base.** The section of the overlay has to be
a mapping, if it is there. -/
theorem normal?_merge (f : Field) {base changes : List (SettingKey × Setting)} {m : Setting}
    (h : Setting.merge base changes = .ok m) (hbase : Setting.OneEach base)
    (hchanges : Setting.OneEach changes)
    (hsection : ∀ v, Setting.find? (.text f.place.1) changes = some v →
      ∃ es, v = .map es ∧ Setting.OneEach es) :
    (Setting.atPath? f.path m).bind f.normal?
      = ((Setting.atPath? f.path (.map changes)).or (Setting.atPath? f.path (.map base))).bind
          f.normal? := by
  have hoverlaid := (Setting.overlaid_merge h hbase hchanges f.place.1).field? hsection f.place.2
  have hcopy : ((Setting.find? (.text f.place.1) base).map Setting.copy).bind
      (Setting.field? f.place.2) = (Setting.atPath? f.path (.map base)).map Setting.copy := by
    rw [atPath?_path, Setting.field?]
    cases Setting.find? (.text f.place.1) base with
    | none => rfl
    | some v => exact Setting.field?_copy f.place.2 v
  rw [hcopy] at hoverlaid
  rw [atPath?_path, normal?_of_overlaid f hoverlaid, atPath?_path f (.map changes), Setting.field?]
  cases (Setting.find? (.text f.place.1) changes).bind (Setting.field? f.place.2) with
  | some v => rfl
  | none =>
    rw [Option.none_or, Option.none_or]
    cases Setting.atPath? f.path (.map base) with
    | none => rfl
    | some v => exact normal?_copy f v

end Field

end FeatureAtlas.Config
