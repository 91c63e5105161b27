import Mathlib
import FeatureAtlas.Console.Run
import FeatureAtlas.Proofs.Config.Ordered
import FeatureAtlas.Proofs.Config.Stopping
import FeatureAtlas.Proofs.FileTree.Reading

/-!
# Errors of a load that users can mend

A load that fails is meant to say what is wrong with the configuration: what could not be loaded, or which
issues it has. Such errors are *typed*, and end a command with the code for configurations. A load goes through
its stages in order, so it is typed exactly if each stage is that it comes to: the file is found and is text,
its YAML values are of their types, all keys can be sorted, and no pattern fails without a report. What the
environment sets never is in the way of sorting, because all its keys are texts.
-/

namespace FeatureAtlas

/-! ## Typed errors -/

/-- The error is about what cannot be loaded, or about the issues of a configuration. -/
def LoadError.IsTyped (e : LoadError) : Prop :=
  (Reportable.failure e).kind = .configLoad ∨ (Reportable.failure e).kind = .configInvalid

theorem LoadError.not_isTyped_notSought (e : FileError) : ¬ (LoadError.notSought e).IsTyped := by
  have hkind : ∀ f : FileFault, f.kind ≠ .configLoad ∧ f.kind ≠ .configInvalid := by
    intro f
    cases f <;> exact ⟨nofun, nofun⟩
  exact fun h ↦ h.elim (hkind e.fault).1 (hkind e.fault).2

/-- A typed error ends a command with the code for configurations. -/
theorem LoadError.IsTyped.code {e : LoadError} (h : e.IsTyped) :
    (CommandError.ofLoad e).code = .configError := by
  rw [CommandError.ofLoad]
  rcases h with h | h <;> rw [h] <;> rfl

namespace Config

variable {α β : Type}

/-- Whatever error the result is, it is typed. -/
def Typed (r : Except LoadError α) : Prop := ∀ e, r = .error e → e.IsTyped

theorem typed_ok (x : α) : Typed (.ok x) := nofun

theorem typed_error_iff {e : LoadError} : Typed (.error e : Except LoadError α) ↔ e.IsTyped :=
  ⟨fun h ↦ h e rfl, fun h _ he ↦ Except.error.inj he ▸ h⟩

theorem typed_bind {m : Except LoadError α} {f : α → Except LoadError β} :
    Typed (m >>= f) ↔ Typed m ∧ ∀ x, m = .ok x → Typed (f x) := by
  cases m with
  | error e =>
    have herror : (Except.error e >>= f) = .error e := rfl
    rw [herror, typed_error_iff, typed_error_iff]
    exact ⟨fun h ↦ ⟨h, nofun⟩, And.left⟩
  | ok x =>
    constructor
    · intro h
      refine ⟨typed_ok x, fun x' hx ↦ ?_⟩
      obtain rfl := Except.ok.inj hx
      exact h
    · exact fun h ↦ h.2 x rfl

theorem typed_mapError_iff {ε : Type} {m : Except ε α} {f : ε → LoadError} :
    Typed (m.mapError f) ↔ ∀ e, m = .error e → (f e).IsTyped := by
  cases m with
  | error e =>
    have herror : Except.mapError f (.error e : Except ε α) = .error (f e) := rfl
    rw [herror, typed_error_iff]
    exact ⟨fun h _ he ↦ Except.error.inj he ▸ h, fun h ↦ h e rfl⟩
  | ok x => exact iff_of_true (typed_ok x) nofun

end Config

/-! ## Keys of overrides -/

namespace Setting

/-- All keys are texts, at every depth outside lists. -/
inductive Worded : Setting → Prop where
  | map {es : List (SettingKey × Setting)} (hkeys : ∀ e ∈ es, ∃ s, e.1 = .text s)
      (hvalues : ∀ e ∈ es, Worded e.2) : Worded (.map es)
  | leaf {v : Setting} (h : v.entries? = none) : Worded v

theorem worded_map_iff {es : List (SettingKey × Setting)} :
    Worded (.map es) ↔ (∀ e ∈ es, ∃ s, e.1 = .text s) ∧ ∀ e ∈ es, Worded e.2 := by
  constructor
  · rintro (⟨hkeys, hvalues⟩ | h)
    · exact ⟨hkeys, hvalues⟩
    · cases h
  · rintro ⟨hkeys, hvalues⟩
    exact .map hkeys hvalues

theorem Worded.ordered {v : Setting} (h : Worded v) : Ordered v := by
  induction h with
  | map hkeys _ ih => exact .map (pairwise_comparable_of_text hkeys) ih
  | leaf h => exact .leaf h

theorem Worded.insert {es : List (SettingKey × Setting)} (h : Worded (.map es)) (s : String)
    {v : Setting} (hv : Worded v) : Worded (.map (Setting.insert (.text s) v es)) := by
  obtain ⟨hkeys, hvalues⟩ := worded_map_iff.mp h
  refine .map (text_of_mem_insert ⟨s, rfl⟩ hkeys) fun e he ↦ ?_
  rcases mem_of_mem_insert he with hmem | ⟨heq, -⟩
  · exact hvalues e hmem
  · rwa [heq]

theorem Worded.entriesOf {existing : Option Setting} (h : ∀ v ∈ existing, Worded v) :
    Worded (.map (entriesOf existing)) := by
  cases existing with
  | none => exact .map (List.forall_mem_nil _) (List.forall_mem_nil _)
  | some v =>
    cases v with
    | map es => exact h _ rfl
    | _ => exact .map (List.forall_mem_nil _) (List.forall_mem_nil _)

theorem Worded.setPath {v : Setting} (hv : Worded v) (path : List String)
    {target : List (SettingKey × Setting)} (h : Worded (.map target)) :
    Worded (.map (setPath v path target)) := by
  fun_induction Setting.setPath v path target with
  | case1 target => exact h
  | case2 key target => exact h.insert key hv
  | case3 key next rest target ih =>
    refine h.insert key (ih (Worded.entriesOf fun w hw ↦ ?_))
    exact (worded_map_iff.mp h).2 _ (mem_of_find? hw)

end Setting

namespace Override

open Setting (Worded)

/-- A variable is read as a value that is no mapping. -/
theorem worded_coerce {name : String} {b : Binding} {raw : String} {v : Setting}
    (h : coerce name b raw = .ok v) : Worded v := by
  rw [coerce] at h
  dsimp only at h
  split at h
  · obtain rfl := Except.ok.inj h
    exact .leaf rfl
  · obtain rfl := Except.ok.inj h
    exact .leaf rfl
  · split at h
    · obtain rfl := Except.ok.inj h
      exact .leaf rfl
    · cases h
  · split at h
    · obtain rfl := Except.ok.inj h
      exact .leaf rfl
    · split at h
      · obtain rfl := Except.ok.inj h
        exact .leaf rfl
      · cases h

theorem worded_addVariable {environment : Table String} {target out : List (SettingKey × Setting)}
    {entry : String × Binding} (htarget : Worded (.map target))
    (h : addVariable environment target entry = .ok out) : Worded (.map out) := by
  rw [addVariable] at h
  split at h
  · obtain rfl := Except.ok.inj h
    exact htarget
  · obtain ⟨v, hv, h⟩ := bind_eq_ok.mp h
    obtain rfl := Except.ok.inj h
    exact (worded_coerce hv).setPath entry.2.path htarget

/-- **What the environment sets has text keys alone.** -/
theorem worded_ofEnvironment {config : Setting} {environment : Table String}
    {out : List (SettingKey × Setting)} (h : ofEnvironment config environment = .ok out) :
    Worded (.map out) := by
  have hrun : ∀ (bs : List (String × Binding)) (target : List (SettingKey × Setting)),
      Worded (.map target) → bs.foldlM (addVariable environment) target = .ok out →
        Worded (.map out) := by
    intro bs
    induction bs with
    | nil =>
      intro target htarget hfold
      obtain rfl := Except.ok.inj hfold
      exact htarget
    | cons b bs ih =>
      intro target htarget hfold
      rw [List.foldlM_cons] at hfold
      obtain ⟨next, hnext, hfold⟩ := bind_eq_ok.mp hfold
      exact ih next (worded_addVariable htarget hnext) hfold
  exact hrun _ [] (.map (List.forall_mem_nil _) (List.forall_mem_nil _)) h

end Override

/-! ## Finding the file -/

namespace FileNode

theorem exists_canonicalWalk (t : FileNode) (here names : List String) :
    ∃ w, t.canonicalWalk false here names = .ok w := by
  induction names generalizing here with
  | nil => exact ⟨_, rfl⟩
  | cons n names ih =>
    rw [canonicalWalk]
    split
    · exact ih _
    · split
      · exact ⟨_, rfl⟩
      · exact ih _
      · exact ih _

theorem canonicalFrom_ne_refused (t : FileNode) (e : FileError) (links : Nat)
    (frames : List (List String × List String)) (here names : List String) :
    t.canonicalFrom false links frames here names ≠ .error (.refused e) := by
  fun_induction canonicalFrom t false links frames here names with
  | case1 links frames here names e' hwalk =>
    obtain ⟨w, hw⟩ := t.exists_canonicalWalk here names
    rw [hw] at hwalk
    cases hwalk
  | case2 => exact nofun
  | case3 links here names place hwalk frame rest outer ih => exact ih
  | case4 links frames here names place target rest hwalk hany => simp [hany]
  | case5 frames here names place target rest hwalk hany => simp [hany]
  | case6 frames here names place target rest hwalk hany links ih => simpa [hany] using ih

/-- A path that need not exist is never refused. -/
theorem canonical_ne_refused (t : FileNode) (cwd : List String) (p : Path) (e : FileError) :
    t.canonical cwd p ≠ .error (.refused e) := t.canonicalFrom_ne_refused e _ _ _ _

end FileNode

namespace ConfigFile

open Config (Typed typed_ok typed_error_iff typed_bind typed_mapError_iff)

theorem typed_canonicalPath_iff {t : FileNode} {cwd : List String} {p : Path} :
    Typed (canonicalPath t cwd p) ↔ ∃ q, canonicalPath t cwd p = .ok q := by
  rw [canonicalPath]
  split
  · exact iff_of_true (typed_ok _) ⟨_, rfl⟩
  · exact iff_of_false (fun h ↦ (h _ rfl).elim nofun nofun) nofun
  · next e he => exact absurd he (t.canonical_ne_refused cwd p e)

theorem typed_firstPresent_iff {t : FileNode} {cwd : List String} {paths : List Path} :
    Typed (firstPresent t cwd paths) ↔ ∃ found, firstPresent t cwd paths = .ok found := by
  induction paths with
  | nil => exact iff_of_true (typed_ok none) ⟨none, rfl⟩
  | cons p paths ih =>
    rw [firstPresent]
    cases h : t.present cwd p with
    | error e => exact iff_of_false (fun h ↦ LoadError.not_isTyped_notSought e (h _ rfl)) nofun
    | ok there =>
      cases there with
      | true => exact iff_of_true (typed_ok _) ⟨_, rfl⟩
      | false => exact ih

/-- Looking for the file has no typed errors: it ends, or an error escapes. -/
theorem typed_find_iff {t : FileNode} {environment : Environment} {cwd : List String}
    {given : Option String} {searchDir : Path} :
    Typed (find t environment cwd given searchDir) ↔
      ∃ file, find t environment cwd given searchDir = .ok file := by
  constructor
  · intro h
    cases given with
    | some text =>
      rw [find, typed_bind] at h
      obtain ⟨hhome, h⟩ := h
      rw [find]
      cases hp : (Path.ofString text).expandHome environment with
      | error e => obtain h | h := typed_mapError_iff.mp hhome e hp <;> cases h
      | ok p =>
        obtain ⟨q, hq⟩ := typed_canonicalPath_iff.mp (typed_bind.mp (h p (by rw [hp]; rfl))).1
        exact ⟨some q, bind_eq_ok.mpr ⟨p, rfl, bind_eq_ok.mpr ⟨q, hq, rfl⟩⟩⟩
    | none =>
      rw [find, typed_bind] at h
      obtain ⟨hfirst, h⟩ := h
      obtain ⟨found, hfound⟩ := typed_firstPresent_iff.mp hfirst
      rw [find]
      have hnext := h found hfound
      cases found with
      | none => exact ⟨none, bind_eq_ok.mpr ⟨none, hfound, rfl⟩⟩
      | some p =>
        obtain ⟨q, hq⟩ := typed_canonicalPath_iff.mp (typed_bind.mp hnext).1
        exact ⟨some q, bind_eq_ok.mpr ⟨some p, hfound, bind_eq_ok.mpr ⟨q, hq, rfl⟩⟩⟩
  · rintro ⟨file, h⟩
    rw [h]
    exact typed_ok file

/-! ## Reading the file -/

/-- The file is YAML. -/
def IsYaml (path : Path) : Prop := yamlSuffixes.contains (Text.lower path.suffix) = true

/-- A file that is text, and whose YAML values are of their types and do not contain themselves. -/
structure Plain (t : FileNode) (path : Path) : Prop where
  /-- No name on its path is too long. -/
  sought : ∀ e, t.present [] path ≠ .error e
  /-- What can be read of it is text, and the reader of YAML has a value for it or finds it malformed. -/
  isText : ∀ bytes, t.read [] path = .ok bytes → ∃ s, Utf8.decode bytes = .ok s ∧
    (IsYaml path → ∀ e, Yaml.read (Text.withNewlines s) = .error e → e = .malformed)

theorem decodeStream_eq_ok_iff {bytes : List UInt8} {s : String} :
    Utf8.decodeStream bytes = .ok s ↔ Utf8.decode bytes = .ok s := by
  rw [Utf8.decodeStream]
  split
  · next rest hdecode => simp [hdecode]
  · rfl

theorem typed_readToml_iff {path : Path} {bytes : List UInt8} :
    Typed (readToml path bytes) ↔ ∃ s, Utf8.decode bytes = .ok s := by
  rw [readToml]
  split
  · next e he =>
    refine iff_of_false (fun h ↦ (h _ rfl).elim nofun nofun) ?_
    rintro ⟨s, hs⟩
    rw [he] at hs
    cases hs
  · next s hs =>
    refine iff_of_true ?_ ⟨s, hs⟩
    split
    · exact typed_ok _
    · exact typed_error_iff.mpr (.inl rfl)

theorem typed_readYaml_iff {path : Path} {bytes : List UInt8} :
    Typed (readYaml path bytes) ↔ ∃ s, Utf8.decode bytes = .ok s ∧
      ∀ e, Yaml.read (Text.withNewlines s) = .error e → e = .malformed := by
  rw [readYaml]
  split
  · next e he =>
    refine iff_of_false (fun h ↦ (h _ rfl).elim nofun nofun) ?_
    rintro ⟨s, hs, -⟩
    rw [decodeStream_eq_ok_iff.mpr hs] at he
    cases he
  · next s hs =>
    have hdecode := decodeStream_eq_ok_iff.mp hs
    simp only [hdecode, Except.ok.injEq, exists_eq_left']
    split
    · next v hv => exact iff_of_true (typed_ok v) (by simp [hv])
    · next hv => exact iff_of_true (typed_error_iff.mpr (.inl rfl)) (by simp [hv])
    · next e hne hv =>
      refine iff_of_false (fun h ↦ (h _ rfl).elim nofun nofun) fun h ↦ ?_
      exact hne (h e hv)

theorem typed_readValue_iff {path : Path} {bytes : List UInt8} :
    Typed (readValue path bytes) ↔ ∃ s, Utf8.decode bytes = .ok s ∧
      (IsYaml path → ∀ e, Yaml.read (Text.withNewlines s) = .error e → e = .malformed) := by
  rw [readValue]
  split
  · next hyaml =>
    rw [typed_readYaml_iff]
    exact exists_congr fun s ↦ and_congr_right fun _ ↦ ⟨fun h _ ↦ h, fun h ↦ h hyaml⟩
  · next hyaml =>
    rw [typed_readToml_iff]
    exact exists_congr fun s ↦ (and_iff_left fun h ↦ absurd h hyaml).symm

theorem typed_entriesOf (path : Path) (v : Setting) : Typed (entriesOf path v) := by
  cases v with
  | null | map => exact typed_ok _
  | _ => exact typed_error_iff.mpr (.inl rfl)

/-- Reading the file is typed exactly if the file is plain. -/
theorem typed_entries_iff {t : FileNode} {path : Path} {required : Bool} :
    Typed (entries t path required) ↔ Plain t path := by
  rw [entries, typed_bind, typed_mapError_iff]
  cases hthere : t.present [] path with
  | error e =>
    refine iff_of_false (fun h ↦ LoadError.not_isTyped_notSought e (h.1 e rfl)) fun h ↦ ?_
    exact h.sought e hthere
  | ok there =>
    have hsought : ∀ e, t.present [] path ≠ .error e := by
      rw [hthere]
      exact nofun
    have hplain : Plain t path ↔ ∀ bytes, t.read [] path = .ok bytes → Typed (readValue path bytes) := by
      simp only [typed_readValue_iff]
      exact ⟨fun h ↦ h.isText, fun h ↦ ⟨hsought, h⟩⟩
    rw [hplain]
    cases there with
    | false =>
      refine iff_of_true ⟨nofun, fun there hthere ↦ ?_⟩ fun bytes hread ↦ ?_
      · obtain rfl := Except.ok.inj hthere
        cases required with
        | true => exact typed_error_iff.mpr (.inl rfl)
        | false => exact typed_ok []
      · rw [FileNode.present_of_read hread] at hthere
        cases hthere
    | true =>
      have hread : Typed ((t.read [] path).mapError (LoadError.unreadable path)) :=
        typed_mapError_iff.mpr fun e _ ↦ .inl rfl
      constructor
      · intro h bytes hbytes
        exact (typed_bind.mp ((typed_bind.mp (h.2 true rfl)).2 bytes (mapError_eq_ok.mpr hbytes))).1
      · refine fun h ↦ ⟨nofun, fun there hthere ↦ ?_⟩
        obtain rfl := Except.ok.inj hthere
        refine typed_bind.mpr ⟨hread, fun bytes hbytes ↦ ?_⟩
        exact typed_bind.mpr ⟨h bytes (mapError_eq_ok.mp hbytes), fun v _ ↦ typed_entriesOf path v⟩

end ConfigFile

/-! ## The layers -/

namespace Config

/-- Validating is typed exactly if no pattern fails without a report. -/
theorem typed_validated_iff (v : Setting) : Typed (validated v) ↔ ¬ Check.Offends v := by
  rw [validated, typed_bind, ← validate_isError_iff, typed_mapError_iff]
  constructor
  · rintro ⟨h, -⟩ ⟨e, he⟩
    exact (h e he).elim nofun nofun
  · intro h
    refine ⟨fun e he ↦ absurd ⟨e, he⟩ h, fun r _ ↦ ?_⟩
    cases r with
    | ok c => exact typed_ok c
    | error issues => exact typed_error_iff.mpr (.inr rfl)

/-- Merging onto comparable keys is typed exactly if what is merged is ordered. -/
theorem typed_merged_iff {base changes : List (SettingKey × Setting)}
    (hbase : (KeyOrder.keys base).Pairwise SettingKey.Comparable) :
    Typed (merged base changes) ↔ Setting.Ordered (.map changes) := by
  rw [merged, typed_mapError_iff, ← Setting.merge_isOk_iff hbase]
  cases Setting.merge base changes with
  | ok m => exact iff_of_true nofun ⟨m, rfl⟩
  | error e => exact iff_of_false (fun h ↦ (h e rfl).elim nofun nofun) nofun

theorem text_of_mem_entries {c : Config} : ∀ e ∈ c.entries, ∃ s, e.1 = SettingKey.text s := by
  intro e he
  rw [entries, List.mem_filterMap] at he
  obtain ⟨⟨s, v⟩, -, hv⟩ := he
  obtain ⟨w, -, rfl⟩ := Option.map_eq_some_iff.mp hv
  exact ⟨s, rfl⟩

theorem typed_ofFile_iff {es : List (SettingKey × Setting)} :
    Typed (ofFile es) ↔ Setting.Ordered (.map es) ∧
      ∀ v, Setting.merge default.entries es = .ok v → ¬ Check.Offends v := by
  rw [ofFile, typed_bind, typed_merged_iff (Setting.pairwise_comparable_of_text text_of_mem_entries)]
  simp only [merged, mapError_eq_ok, typed_validated_iff]

/-- What a configuration is with its overrides, before it is validated. -/
def Overridden (c : Config) (environment : Environment) (options : Table Setting) (v : Setting) : Prop :=
  ∃ fromEnvironment given m, Override.ofEnvironment c.toSetting environment = .ok fromEnvironment ∧
    Override.ofOptions options = .ok given ∧ Setting.merge c.entries fromEnvironment = .ok m ∧
    Setting.merge (m.entries?.getD []) given = .ok v

theorem text_of_mem_insertEach {l : List (SettingKey × Except KeyOrderError Setting)}
    {target out : List (SettingKey × Setting)} (h : Setting.insertEach l target = .ok out)
    (hl : ∀ e ∈ l, ∃ s, e.1 = SettingKey.text s) (htarget : ∀ e ∈ target, ∃ s, e.1 = SettingKey.text s) :
    ∀ e ∈ out, ∃ s, e.1 = SettingKey.text s := by
  induction l generalizing target with
  | nil =>
    obtain rfl := Except.ok.inj h
    exact htarget
  | cons e l ih =>
    obtain ⟨he, hl⟩ := List.forall_mem_cons.mp hl
    obtain ⟨v, -, h⟩ := bind_eq_ok.mp h
    exact ih h hl (Setting.text_of_mem_insert he htarget)

/-- Merging text keys onto text keys leaves text keys. -/
theorem text_of_mem_merge {base changes : List (SettingKey × Setting)} {m : Setting}
    (h : Setting.merge base changes = .ok m) (hbase : ∀ e ∈ base, ∃ s, e.1 = SettingKey.text s)
    (hchanges : ∀ e ∈ changes, ∃ s, e.1 = SettingKey.text s) :
    ∀ e ∈ m.entries?.getD [], ∃ s, e.1 = SettingKey.text s := by
  obtain ⟨sorted, hsorted, h⟩ := bind_eq_ok.mp h
  rw [Setting.overlay] at h
  obtain ⟨overlaid, hoverlaid, h⟩ := bind_eq_ok.mp h
  obtain ⟨out, hout, h⟩ := bind_eq_ok.mp h
  obtain rfl := Except.ok.inj h
  refine text_of_mem_insertEach hout (fun e he ↦ ?_) fun e he ↦ ?_
  · have hkey : e.1 ∈ KeyOrder.keys changes := by
      rw [← Setting.keys_overlayEntries]
      exact List.mem_map_of_mem ((KeyOrder.sort_perm hoverlaid).mem_iff.mp he)
    obtain ⟨e', he', heq⟩ := List.mem_map.mp hkey
    rw [← heq]
    exact hchanges e' he'
  · obtain ⟨e', he', rfl⟩ := List.mem_map.mp he
    exact hbase e' ((KeyOrder.sort_perm hsorted).mem_iff.mp he')

theorem typed_withOverrides_iff {c : Config} {environment : Environment} {options : Table Setting} :
    Typed (c.withOverrides environment options) ↔
      (∀ fromEnvironment given, Override.ofEnvironment c.toSetting environment = .ok fromEnvironment →
        Override.ofOptions options = .ok given → Setting.Ordered (.map given)) ∧
      ∀ v, Overridden c environment options v → ¬ Check.Offends v := by
  have hvariables : Typed ((Override.ofEnvironment c.toSetting environment).mapError .override) :=
    typed_mapError_iff.mpr fun _ _ ↦ .inl rfl
  have hoptions : Typed ((Override.ofOptions options).mapError .override) :=
    typed_mapError_iff.mpr fun _ _ ↦ .inl rfl
  have hbase : (KeyOrder.keys c.entries).Pairwise SettingKey.Comparable :=
    Setting.pairwise_comparable_of_text text_of_mem_entries
  simp only [withOverrides, typed_bind, merged, mapError_eq_ok, typed_validated_iff, hvariables,
    hoptions, true_and]
  constructor
  · intro h
    constructor
    · intro fromEnvironment given hfrom hgiven
      have hworded := Override.worded_ofEnvironment hfrom
      obtain ⟨m, hm⟩ := (Setting.merge_isOk_iff hbase).mpr hworded.ordered
      have hkeys := Setting.pairwise_comparable_of_text
        (text_of_mem_merge hm text_of_mem_entries (Setting.worded_map_iff.mp hworded).1)
      exact (typed_merged_iff hkeys).mp ((h _ hfrom _ hgiven).2 m hm).1
    · rintro v ⟨fromEnvironment, given, m, hfrom, hgiven, hm, hv⟩
      exact ((h _ hfrom _ hgiven).2 m hm).2 v hv
  · rintro ⟨hordered, hpatterns⟩ fromEnvironment hfrom given hgiven
    have hworded := Override.worded_ofEnvironment hfrom
    refine ⟨(typed_merged_iff hbase).mpr hworded.ordered, fun m hm ↦ ⟨?_, fun v hv ↦ ?_⟩⟩
    · have hkeys := Setting.pairwise_comparable_of_text
        (text_of_mem_merge hm text_of_mem_entries (Setting.worded_map_iff.mp hworded).1)
      exact (typed_merged_iff hkeys).mpr (hordered _ _ hfrom hgiven)
    · exact hpatterns v ⟨fromEnvironment, given, m, hfrom, hgiven, hm, hv⟩

/-! ## The whole load -/

/-- What a configuration is loaded from has none of the faults that are reported as they are. Each stage counts
only if the load comes to it. -/
structure Plain (t : FileNode) (process : Environment) (cwd : List String) (s : Sources) : Prop where
  /-- The file is found, or found missing: no home is unknown, no links are a loop, no name is too long. -/
  found : ∃ file, ConfigFile.find t process cwd s.path s.searchDir = .ok file
  /-- The file is text with values of their types. -/
  file : ∀ path, ConfigFile.find t process cwd s.path s.searchDir = .ok (some path) →
    ConfigFile.Plain t path
  /-- The keys in the file can be compared. -/
  fileKeys : ∀ es, s.fileEntries t process cwd = .ok es → Setting.Ordered (.map es)
  /-- No pattern of the file fails without a report. -/
  filePatterns : ∀ es v, s.fileEntries t process cwd = .ok es →
    Setting.merge default.entries es = .ok v → ¬ Check.Offends v
  /-- The keys in the options can be compared. -/
  optionKeys : ∀ es c, s.fileEntries t process cwd = .ok es → ofFile es = .ok c →
    ∀ fromEnvironment given, Override.ofEnvironment c.toSetting s.environment = .ok fromEnvironment →
      Override.ofOptions s.options = .ok given → Setting.Ordered (.map given)
  /-- No pattern of the overrides fails without a report. -/
  overridePatterns : ∀ es c, s.fileEntries t process cwd = .ok es → ofFile es = .ok c →
    ∀ v, Overridden c s.environment s.options v → ¬ Check.Offends v

variable {t : FileNode} {process : Environment} {cwd : List String} {s : Sources}

theorem typed_fileEntries_iff : Typed (s.fileEntries t process cwd) ↔
    (∃ file, ConfigFile.find t process cwd s.path s.searchDir = .ok file) ∧
      ∀ path, ConfigFile.find t process cwd s.path s.searchDir = .ok (some path) →
        ConfigFile.Plain t path := by
  rw [Sources.fileEntries, typed_bind, ConfigFile.typed_find_iff]
  refine and_congr_right fun _ ↦ ⟨fun h path hpath ↦ ?_, fun h file hfile ↦ ?_⟩
  · exact ConfigFile.typed_entries_iff.mp (h (some path) hpath)
  · cases file with
    | none => exact typed_ok []
    | some path => exact ConfigFile.typed_entries_iff.mpr (h path hfile)

theorem typed_load_iff : Typed (load t process cwd s) ↔ Plain t process cwd s := by
  have hload : load t process cwd s = (s.fileEntries t process cwd >>= fun es ↦
      ofFile es >>= fun c ↦ c.withOverrides s.environment s.options) := rfl
  rw [hload]
  simp only [typed_bind, typed_fileEntries_iff, typed_ofFile_iff, typed_withOverrides_iff]
  constructor
  · rintro ⟨⟨hfound, hfile⟩, h⟩
    exact ⟨hfound, hfile, fun es hes ↦ (h es hes).1.1, fun es v hes ↦ (h es hes).1.2 v,
      fun es c hes hc ↦ ((h es hes).2 c hc).1, fun es c hes hc ↦ ((h es hes).2 c hc).2⟩
  · intro h
    exact ⟨⟨h.found, h.file⟩, fun es hes ↦ ⟨⟨h.fileKeys es hes, fun v ↦ h.filePatterns es v hes⟩,
      fun c hc ↦ ⟨h.optionKeys es c hes hc, h.overridePatterns es c hes hc⟩⟩⟩

theorem load_of_readValue_error {path : Path} {bytes : List UInt8} {e : LoadError}
    (hfind : ConfigFile.find t process cwd s.path s.searchDir = .ok (some path))
    (hread : t.read [] path = .ok bytes) (hvalue : ConfigFile.readValue path bytes = .error e) :
    load t process cwd s = .error e := by
  have hentries : ConfigFile.entries t path s.path.isSome = .error e := by
    rw [ConfigFile.entries, FileNode.present_of_read hread, hread]
    simp [Except.mapError, bind, Except.bind, hvalue]
  have hfile : s.fileEntries t process cwd = .error e := by
    rw [Sources.fileEntries, hfind]
    exact hentries
  rw [load, hfile]
  rfl

/-- A directory with a configuration file in it. -/
def fileTree (bytes : List UInt8) : FileNode := .directory [("featuremap.toml", .file bytes)]

/-- A load from that directory alone. -/
def fileSources : Sources := { searchDir := ⟨"/", []⟩ }

theorem load_fileTree {bytes : List UInt8} {e : LoadError}
    (h : ConfigFile.readToml ⟨"/", ["featuremap.toml"]⟩ bytes = .error e) :
    load (fileTree bytes) [] [] fileSources = .error e := by
  let path : Path := ⟨"/", ["featuremap.toml"]⟩
  have hsuffix : ConfigFile.yamlSuffixes.contains (Text.lower path.suffix) = false := by
    decide +kernel
  have hfind : ConfigFile.find (fileTree bytes) [] [] none ⟨"/", []⟩ = .ok (some path) := by cbv
  have hread : (fileTree bytes).read [] path = .ok bytes := by cbv
  refine load_of_readValue_error hfind hread ?_
  rw [ConfigFile.readValue, hsuffix]
  exact h

end Config

end FeatureAtlas
