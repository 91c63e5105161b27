import Mathlib
import FeatureAtlas.Proofs.Config.Keyed
import FeatureAtlas.Proofs.Config.Override

/-!
# Which layer a value comes from

A loaded configuration is made of four layers by two merges and two validations in turn. For one field this
comes to a choice: the value of its option counts, or else that of its variable, or else that of the file, or
else the default, and what counts is taken to its normal form. The validation in between changes nothing,
because it only brings forward the normal form that the second one would give.

A section that the file makes null is the one thing in the way: the validation in between passes over it, and
neither the defaults nor the environment can fill it again. But then the second validation misses it, unless
the command line gives all its fields.
-/

namespace FeatureAtlas.Config

open Override (Sectioned valueAt)

/-! ## The layers one by one -/

theorem validated_eq_ok {v : Setting} {c : Config} :
    validated v = .ok c ↔ Reading.config v = some c := by
  rw [← validate_eq_ok_iff, validated, bind_eq_ok]
  simp only [mapError_eq_ok]
  constructor
  · rintro ⟨r, hr, hc⟩
    cases r with
    | error issues => cases hc
    | ok d => rw [hr, Except.ok.inj hc]
  · exact fun h ↦ ⟨.ok c, h, rfl⟩

theorem ofFile_eq_ok {fileEntries : List (SettingKey × Setting)} {c : Config} :
    ofFile fileEntries = .ok c ↔
      ∃ m, Setting.merge default.entries fileEntries = .ok m ∧ Reading.config m = some c := by
  rw [ofFile, bind_eq_ok]
  simp only [merged, mapError_eq_ok, validated_eq_ok]

theorem withOverrides_eq_ok {c r : Config} {environment : Environment} {options : Table Setting} :
    c.withOverrides environment options = .ok r ↔
      ∃ fromEnvironment given m m', Override.ofEnvironment c.toSetting environment = .ok fromEnvironment ∧
        Override.ofOptions options = .ok given ∧ Setting.merge c.entries fromEnvironment = .ok m ∧
        Setting.merge (m.entries?.getD []) given = .ok m' ∧ Reading.config m' = some r := by
  simp only [withOverrides, bind_eq_ok, merged, mapError_eq_ok, validated_eq_ok]
  constructor
  · rintro ⟨fromEnvironment, hv, given, hg, m, hm, m', hm', hr⟩
    exact ⟨fromEnvironment, given, m, m', hv, hg, hm, hm', hr⟩
  · rintro ⟨fromEnvironment, given, m, m', hv, hg, hm, hm', hr⟩
    exact ⟨fromEnvironment, hv, given, hg, m, hm, m', hm', hr⟩

/-! ## Configurations as layers -/

theorem oneEach_entries (c : Config) : Setting.OneEach c.entries := by
  obtain ⟨m, p, a, o⟩ := c
  cases m <;> cases p <;> cases a <;> cases o <;>
  simp [Setting.OneEach, Setting.textKeys, entries, sections, SettingKey.text?]

theorem atPath?_entries (f : Field) (c : Config) :
    Setting.atPath? f.path (.map c.entries) = f.value? c := f.atPath?_toSetting c

theorem field?_toSetting_ne_null (c : Config) (key : String) :
    c.toSetting.field? key ≠ some .null := by
  intro h
  obtain ⟨inner, hinner⟩ := exists_ofFields_of_mem_sections
    (mem_entries.mp (Setting.mem_of_find? h))
  cases hinner

/-- Merging sections that are mappings makes no section null. -/
theorem field?_merge_ne_null {base changes : List (SettingKey × Setting)} {m : Setting}
    (h : Setting.merge base changes = .ok m) (hbase : Setting.OneEach base)
    (hchanges : Sectioned changes) {key : String}
    (hnull : Setting.find? (.text key) base ≠ some .null) : m.field? key ≠ some .null := by
  have hoverlaid := Setting.overlaid_merge h hbase hchanges.oneEach key
  intro hm
  cases hchange : Setting.find? (.text key) changes with
  | none =>
    rw [hchange] at hoverlaid
    obtain ⟨v, hv, hcopy⟩ := Option.map_eq_some_iff.mp (hoverlaid.symm.trans hm)
    cases v with
    | null => exact hnull hv
    | _ => cases hcopy
  | some v =>
    obtain ⟨es, rfl, -⟩ := hchanges.sections key v hchange
    rw [hchange] at hoverlaid
    obtain ⟨r, hr, hresult⟩ := hoverlaid
    obtain ⟨out, rfl⟩ := Setting.exists_map_of_overlay hr
    rw [hm] at hresult
    cases hresult

/-- **The layers below the environment.** A field has the normal form of the file's value or of the default,
unless the file has something else than a mapping for its section. -/
theorem value?_ofFile {fileEntries : List (SettingKey × Setting)} {c : Config}
    (h : ofFile fileEntries = .ok c) (hkeyed : Setting.Keyed (.map fileEntries)) (f : Field) :
    f.value? c = none ∨
      f.value? c = ((Setting.atPath? f.path (.map fileEntries)).or (f.value? default)).bind
        f.normal? := by
  obtain ⟨m, hm, hc⟩ := ofFile_eq_ok.mp h
  have hone := (Setting.keyed_map_iff.mp hkeyed).1
  rw [Field.value?_of_config hc]
  have hmerge := fun hmap ↦ f.normal?_merge hm (oneEach_entries default) hone hmap
  rw [atPath?_entries] at hmerge
  cases hs : Setting.find? (.text f.place.1) fileEntries with
  | none =>
    rw [hs] at hmerge
    exact Or.inr (hmerge nofun)
  | some v =>
    rw [hs] at hmerge
    cases v with
    | map es =>
      refine Or.inr (hmerge fun v hv ↦ ?_)
      obtain rfl := Option.some.inj hv
      exact ⟨es, rfl, (Setting.keyed_map_iff.mp (hkeyed.of_find? hs)).1⟩
    | _ =>
      -- the section is replaced by a value without fields
      have hoverlaid := Setting.overlaid_merge hm (oneEach_entries default) hone f.place.1
      rw [hs] at hoverlaid
      obtain ⟨r, hr, hfield⟩ := hoverlaid
      obtain rfl := Except.ok.inj hr
      rw [Field.atPath?_path, hfield]
      exact Or.inl rfl

/-- **The layers above the file.** A field has the normal form of what was given, or of what a variable says,
or of what it was; and no field is lost. -/
theorem value?_withOverrides {c r : Config} {environment : Environment} {options : Table Setting}
    (h : c.withOverrides environment options = .ok r) (hkeys : options.NodupKeys)
    (hdotted : ∀ e ∈ options, Override.Dotted e.1) :
    ∃ fromEnvironment given, Override.ofEnvironment c.toSetting environment = .ok fromEnvironment ∧
      Override.ofOptions options = .ok given ∧ r.Complete ∧
      ∀ f : Field, f.value? r = ((valueAt given f.place).or
        ((valueAt fromEnvironment f.place).or (f.value? c))).bind f.normal? := by
  obtain ⟨fromEnvironment, given, m, m', hv, hg, hm, hm', hr⟩ := withOverrides_eq_ok.mp h
  have hvariables := (Override.ofEnvironment_eq_ok hv).1
  have hgiven := (Override.ofOptions_eq_ok hkeys hdotted hg).1
  obtain ⟨out, rfl, hout⟩ := Setting.oneEach_merge hm (oneEach_entries c)
  rw [Setting.entries?, Option.getD_some] at hm'
  have hnull : ∀ key ∈ Reading.sectionNames, m'.field? key ≠ some .null := fun key _ ↦
    field?_merge_ne_null hm' hout hgiven
      (field?_merge_ne_null hm (oneEach_entries c) hvariables (field?_toSetting_ne_null c key))
  refine ⟨fromEnvironment, given, hv, hg, (complete_iff_no_null hr).mpr hnull, fun f ↦ ?_⟩
  have hupper := f.normal?_merge hm' hout hgiven.oneEach fun v ↦ hgiven.sections _ v
  have hlower := f.normal?_merge hm (oneEach_entries c) hvariables.oneEach fun v ↦
    hvariables.sections _ v
  rw [Field.value?_of_config hr, hupper, Override.atPath?_map f given]
  cases valueAt given f.place with
  | some v => rfl
  | none => rw [Option.none_or, Option.none_or, hlower, atPath?_entries, Override.atPath?_map]

/-! ## All layers -/

namespace Field

/-- The value that counts below the command line. -/
def suppliedBelow (f : Field) (variableText : Option String) (inFile : Option Setting) :
    Except OverrideError (Option Setting) :=
  match if f.place.1 = "meta" then none else variableText with
  | some text => (Override.coerce f.variableName ⟨f.path, f.kind⟩ text).map some
  | none => .ok (inFile.or (f.value? default))

/-- The value that counts for a field, out of the value of its option, the text of its variable and the value
in the file: the first of these that there is, or else the default. A null option is none, and fields about
the configuration itself have no variable. -/
def supplied (f : Field) (given : Option Setting) (variableText : Option String)
    (inFile : Option Setting) : Except OverrideError (Option Setting) :=
  match given with
  | none => f.suppliedBelow variableText inFile
  | some .null => f.suppliedBelow variableText inFile
  | some v => .ok (some v)

theorem isName_place (f : Field) : Override.IsName f.place.1 ∧ Override.IsName f.place.2 := by
  cases f <;> decide

end Field

private theorem exists_suppliedBelow {c : Config} {environment : Environment}
    {fromEnvironment : List (SettingKey × Setting)}
    (hv : Override.ofEnvironment c.toSetting environment = .ok fromEnvironment) {f : Field}
    {inFile : Option Setting}
    (hfile : f.value? c = none ∨ f.value? c = (inFile.or (f.value? default)).bind f.normal?)
    {x : Setting} (hx : ((valueAt fromEnvironment f.place).or (f.value? c)).bind f.normal? = some x) :
    ∃ v, f.suppliedBelow (environment.lookup f.variableName) inFile = .ok (some v) ∧
      f.normal? v = some x := by
  obtain ⟨hset, hunset⟩ := (Override.ofEnvironment_eq_ok hv).2 f
  rw [Field.suppliedBelow]
  cases htext : if f.place.1 = "meta" then none else environment.lookup f.variableName with
  | some text =>
    have hmeta : f.place.1 ≠ "meta" := by
      intro hmeta
      rw [if_pos hmeta] at htext
      cases htext
    rw [if_neg hmeta] at htext
    -- a field that the file took away has no variable, and nothing else gives it a value
    have hsome : (f.value? c).isSome = true := by
      cases hc : f.value? c with
      | some y => rfl
      | none =>
        rw [hunset (Or.inr (Or.inl hc)), hc] at hx
        cases hx
    obtain ⟨v, hcoerce, hat⟩ := hset text hmeta hsome htext
    rw [hat, Option.some_or, Option.bind_some] at hx
    refine ⟨v, ?_, hx⟩
    dsimp only
    rw [hcoerce]
    rfl
  | none =>
    have hnone : valueAt fromEnvironment f.place = none := by
      by_cases hmeta : f.place.1 = "meta"
      · exact hunset (Or.inl hmeta)
      · rw [if_neg hmeta] at htext
        exact hunset (Or.inr (Or.inr htext))
    rw [hnone, Option.none_or] at hx
    obtain ⟨y, hy, hyx⟩ := Option.bind_eq_some_iff.mp hx
    rcases hfile with hlost | hkept
    · rw [hlost] at hy
      cases hy
    · obtain ⟨v, hsupplied, hvy⟩ := Option.bind_eq_some_iff.mp (hkept.symm.trans hy)
      -- the second validation leaves the first one's normal form as it is
      have hxy : y = x := Option.some.inj ((Field.normal?_of_normal? hvy).symm.trans hyx)
      exact ⟨v, congrArg Except.ok hsupplied, hxy ▸ hvy⟩

theorem exists_supplied {fileEntries : List (SettingKey × Setting)} {environment : Environment}
    {options : Table Setting} {c r : Config} (hc : ofFile fileEntries = .ok c)
    (hr : c.withOverrides environment options = .ok r)
    (hkeyed : Setting.Keyed (.map fileEntries)) (hkeys : options.NodupKeys)
    (hdotted : ∀ e ∈ options, Override.Dotted e.1) (f : Field) :
    ∃ v x, f.supplied (options.lookup f.option) (environment.lookup f.variableName)
        (Setting.atPath? f.path (.map fileEntries)) = .ok (some v) ∧
      f.normal? v = some x ∧ f.value? r = some x := by
  obtain ⟨fromEnvironment, given, hv, hg, hcomplete, hvalue⟩ := value?_withOverrides hr hkeys hdotted
  obtain ⟨x, hx⟩ := Option.isSome_iff_exists.mp (f.isSome_value? hcomplete)
  have hgiven : ∀ v, valueAt given f.place = some v ↔
      options.lookup f.option = some v ∧ v ≠ .null :=
    (Override.ofOptions_eq_ok hkeys hdotted hg).2 _ _ f.isName_place.1 f.isName_place.2
  have hfile := value?_ofFile hc hkeyed f
  have hbelow : valueAt given f.place = none → ∃ v x,
      f.suppliedBelow (environment.lookup f.variableName)
        (Setting.atPath? f.path (.map fileEntries)) = .ok (some v) ∧
      f.normal? v = some x ∧ f.value? r = some x := by
    intro hnone
    obtain ⟨v, hsupplied, hnormal⟩ := exists_suppliedBelow hv hfile
      (by rw [← hx, hvalue f, hnone, Option.none_or])
    exact ⟨v, x, hsupplied, hnormal, hx⟩
  have hnotGiven : (∀ v, options.lookup f.option = some v → v = .null) →
      valueAt given f.place = none := by
    intro hnull
    refine Option.eq_none_iff_forall_ne_some.mpr fun v hv ↦ ?_
    obtain ⟨hoption, hne⟩ := (hgiven v).mp hv
    exact hne (hnull v hoption)
  cases hoption : options.lookup f.option with
  | none => exact hbelow (hnotGiven (by simp [hoption]))
  | some v =>
    cases v with
    | null => exact hbelow (hnotGiven (by simp [hoption]))
    | _ =>
      refine ⟨_, x, rfl, ?_, hx⟩
      rw [← hx, hvalue f, (hgiven _).mpr ⟨hoption, nofun⟩, Option.some_or, Option.bind_some]

/-- **Precedence, field by field.** Each field of a loaded configuration has the normal form of what counts
for it: the value of its option if that is there and not null, or else its variable if that is set and the
field is not about the configuration itself, or else the value in the file, or else the default. Nothing but
these is asked for the field. -/
theorem load_supplied {t : FileNode} {process : Environment} {cwd : List String} {s : Sources}
    {r : Config} (h : load t process cwd s = .ok r) (hkeys : s.options.NodupKeys)
    (hdotted : ∀ e ∈ s.options, Override.Dotted e.1) :
    ∃ fileEntries, s.fileEntries t process cwd = .ok fileEntries ∧
      ∀ f : Field, ∃ v x,
        f.supplied (s.options.lookup f.option) (s.environment.lookup f.variableName)
          (Setting.atPath? f.path (.map fileEntries)) = .ok (some v) ∧
        f.normal? v = some x ∧ Setting.atPath? f.path r.toSetting = some x := by
  obtain ⟨fileEntries, hfile, h⟩ := bind_eq_ok.mp h
  obtain ⟨c, hc, hr⟩ := bind_eq_ok.mp h
  refine ⟨fileEntries, hfile, fun f ↦ ?_⟩
  rw [Field.atPath?_toSetting]
  exact exists_supplied hc hr (Sources.keyed_fileEntries hfile) hkeys hdotted f

/-! ## A configuration with a value from each layer -/

namespace Layered

/-- A project whose file sets one field. -/
def tree : FileNode := .directory
  [("featuremap.toml", .file ("analysis.read_concurrency=4".toList.map fun c ↦ UInt8.ofNat c.toNat))]

/-- The file's field has a variable too, and a null option; another field has a variable and an option. -/
def sources : Sources where
  path := some "/featuremap.toml"
  searchDir := Path.ofString "/"
  environment := [("FEATUREMAP_OBSERVABILITY_LOG_LEVEL", "warning"),
    ("FEATUREMAP_ANALYSIS_READ_CONCURRENCY", " 6 ")]
  options := [("observability.log_level", .str "error "), ("analysis.read_concurrency", .null)]

/-- The default configuration but for these two fields. -/
def config (readConcurrency : Int) (logLevel : String) : Config where
  meta_ := default.meta_
  featureMap := default.featureMap
  analysis := some ⟨defaultTsconfig, PatternTexts.default, readConcurrency⟩
  observability := some ⟨logLevel, ""⟩

/-- The sections of the configuration in the order in which a merge leaves them. -/
def sorted (readConcurrency : Int) (logLevel : String) : List (SettingKey × Setting) :=
  ["analysis", "feature_map", "meta", "observability"].filterMap fun key ↦
    ((config readConcurrency logLevel).toSetting.field? key).map fun v ↦ (.text key, v)

/-- Entries that set one field. -/
def entry (key name : String) (v : Setting) : SettingKey × Setting :=
  (.text key, .map [(.text name, v)])

attribute [local simp] config sorted entry
  entries sections default PatternTexts.default field?_toSetting MetaSection.fields
  MapSection.fields AnalysisSection.fields ObservabilitySection.fields Setting.ofFields
  Setting.strings Setting.entries? Setting.entriesOf Setting.find?_cons Setting.insert
  SettingKey.same_text SettingKey.text? KeyOrder.textEntries? Text.sortKeys
  List.mergeSort List.MergeSort.Internal.splitInTwo List.lookup bind Except.bind pure Except.pure

section Merges

attribute [local simp] Setting.merge KeyOrder.sort Setting.overlay Setting.overlayEntries
  Setting.insertEach Setting.copy Setting.copyEntries Setting.copyItems

theorem merge_file : Setting.merge default.entries [entry "analysis" "read_concurrency" (.int 4)]
    = .ok (.map (sorted 4 "INFO")) := by
  simp +decide

theorem merge_variables : Setting.merge (config 4 "INFO").entries
    [entry "analysis" "read_concurrency" (.int 6), entry "observability" "log_level" (.str "warning")]
    = .ok (.map (sorted 6 "warning")) := by
  simp +decide

theorem merge_options : Setting.merge (sorted 6 "warning")
    [entry "observability" "log_level" (.str "error ")] = .ok (.map (sorted 6 "error ")) := by
  simp +decide

end Merges

theorem fileEntries_sources : sources.fileEntries tree [] []
    = .ok [entry "analysis" "read_concurrency" (.int 4)] := by
  let path : Path := ⟨"/", ["featuremap.toml"]⟩
  let text := "analysis.read_concurrency=4"
  have hfind : ConfigFile.find tree [] [] sources.path sources.searchDir = .ok (some path) := by cbv
  have hpresent : tree.present [] path = .ok true := by cbv
  have hbytes : tree.read [] path = .ok (text.toList.map fun c ↦ UInt8.ofNat c.toNat) := by cbv
  have hsuffix : ConfigFile.yamlSuffixes.contains (Text.lower path.suffix) = false := by
    decide +kernel
  have htext : Utf8.decode (text.toList.map fun c ↦ UInt8.ofNat c.toNat) = .ok text := by cbv
  have hread : Toml.read? text = some [entry "analysis" "read_concurrency" (.int 4)] := by cbv
  have hvalue : ConfigFile.readValue path (text.toList.map fun c ↦ UInt8.ofNat c.toNat)
      = .ok (.map [entry "analysis" "read_concurrency" (.int 4)]) := by
    rw [ConfigFile.readValue, hsuffix, if_neg Bool.false_ne_true, ConfigFile.readToml, htext]
    dsimp only
    rw [hread]
  refine bind_eq_ok.mpr ⟨some path, hfind, bind_eq_ok.mpr ⟨true, ?_, ?_⟩⟩
  · exact mapError_eq_ok.mpr hpresent
  · rw [if_pos rfl]
    exact bind_eq_ok.mpr ⟨_, mapError_eq_ok.mpr hbytes, bind_eq_ok.mpr ⟨_, hvalue, rfl⟩⟩

theorem ofOptions_sources : Override.ofOptions sources.options
    = .ok [entry "observability" "log_level" (.str "error ")] := by
  have hpath : Text.split '.' "observability.log_level" = ["observability", "log_level"] := by
    decide +kernel
  simp +decide [Override.ofOptions, Override.addOption, sources, Setting.setPath, Setting.find?, hpath]

theorem variableName_all : Field.all.map Field.variableName =
    ["FEATUREMAP_META_SCHEMA_VERSION", "FEATUREMAP_FEATURE_MAP_INCLUDE",
     "FEATUREMAP_FEATURE_MAP_EXCLUDE", "FEATUREMAP_FEATURE_MAP_OUTPUT_DIR",
     "FEATUREMAP_ANALYSIS_TSCONFIG", "FEATUREMAP_ANALYSIS_COMPONENT_PATTERNS",
     "FEATUREMAP_ANALYSIS_ACTION_PATTERNS", "FEATUREMAP_ANALYSIS_MODULE_PATTERNS",
     "FEATUREMAP_ANALYSIS_READ_CONCURRENCY", "FEATUREMAP_OBSERVABILITY_LOG_LEVEL",
     "FEATUREMAP_OBSERVABILITY_LOG_FILE"] := by
  decide +kernel

theorem ofEnvironment_sources : Override.ofEnvironment (config 4 "INFO").toSetting sources.environment
    = .ok [entry "analysis" "read_concurrency" (.int 6),
      entry "observability" "log_level" (.str "warning")] := by
  have hnames := variableName_all
  simp only [Field.all, List.map, Field.variableName, Field.path, Field.place, List.cons.injEq,
    and_true] at hnames
  obtain ⟨-, h1, h2, h3, h4, h5, h6, h7, h8, h9, h10⟩ := hnames
  have hsix : Text.integer? (Text.strip " 6 ") = some 6 := by decide +kernel
  have hwarning : Text.strip "warning" = "warning" := by decide +kernel
  simp +decide [Override.ofEnvironment, Override.bindings, Override.leaves, Override.leavesBelow,
    Override.kind?, Override.addVariable, Override.coerce, Table.ofEntries, Table.set, Table.modify,
    Setting.setPath, Setting.find?, toSetting, sources, h1, h2, h3, h4, h5, h6, h7, h8, h9, h10,
    hsix, hwarning]

theorem load_sources : load tree [] [] sources = .ok (config 6 "ERROR") := by
  refine bind_eq_ok.mpr ⟨_, fileEntries_sources, bind_eq_ok.mpr ⟨config 4 "INFO", ?_, ?_⟩⟩
  · exact ofFile_eq_ok.mpr ⟨_, merge_file, by decide +kernel⟩
  · exact withOverrides_eq_ok.mpr ⟨_, _, _, _, ofEnvironment_sources, ofOptions_sources,
      merge_variables, merge_options, by decide +kernel⟩

theorem dotted_sources : ∀ e ∈ sources.options, Override.Dotted e.1 := by
  intro e he
  simp only [sources, List.mem_cons, List.not_mem_nil, or_false] at he
  rcases he with rfl | rfl
  · exact ⟨"observability", "log_level", by decide, by decide, rfl⟩
  · exact ⟨"analysis", "read_concurrency", by decide, by decide, rfl⟩

end Layered

open Layered in
theorem load_supplied_layered : load tree [] [] sources = .ok (config 6 "ERROR") ∧
    ∃ fileEntries, sources.fileEntries tree [] [] = .ok fileEntries ∧
      ∀ f : Field, ∃ v x,
        f.supplied (sources.options.lookup f.option) (sources.environment.lookup f.variableName)
          (Setting.atPath? f.path (.map fileEntries)) = .ok (some v) ∧
        f.normal? v = some x ∧ Setting.atPath? f.path (config 6 "ERROR").toSetting = some x :=
  ⟨load_sources, load_supplied load_sources (by decide) dotted_sources⟩

end FeatureAtlas.Config
