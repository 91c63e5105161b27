import FeatureAtlas.Config.Objects
import FeatureAtlas.Proofs.Config.Objects
import FeatureAtlas.Proofs.Path.Rooted

/-!
# Resolved path fields

Setting the text at a path that has one is seen at this path alone, so resolving one field leaves the others for
the fields that follow. A text that was resolved is the text of an absolute path in normal form, and such a text
is resolved to itself, as long as there is no variable in it: whatever the base, whatever the environment.
-/

namespace FeatureAtlas

open Setting (Textual SameMapping atPath? entriesOf faceAt find? setPath)

namespace Setting

/-! ## Setting a path -/

variable {es : List (SettingKey × Setting)} {v w : Setting}

theorem field?_insert (key : String) (v : Setting) (es : List (SettingKey × Setting)) (k : String) :
    (map (Setting.insert (.text key) v es)).field? k = if key = k then some v else find? (.text k) es := by
  rw [field?, find?_insert]
  simp only [SettingKey.text.injEq]

/-- A path with something below its first key goes through a mapping. -/
theorem exists_map_of_atPath? {key next : String} {rest : List String}
    (h : atPath? (key :: next :: rest) (map es) = some w) :
    ∃ below, find? (.text key) es = some (map below) ∧ atPath? (next :: rest) (map below) = some w := by
  obtain ⟨u, hu, hw⟩ := Option.bind_eq_some_iff.mp h
  obtain ⟨x, hx, -⟩ := Option.bind_eq_some_iff.mp hw
  cases u with
  | map below => exact ⟨below, hu, hw⟩
  | _ => cases hx

theorem atPath?_setPath (path : List String) (hpath : path ≠ []) : ∀ {es : List (SettingKey × Setting)},
    atPath? path (map es) = some w → atPath? path (map (setPath v path es)) = some v := by
  induction path with
  | nil => exact absurd rfl hpath
  | cons key path ih =>
    intro es h
    cases path with
    | nil => rw [setPath, atPath?, field?_insert, if_pos rfl, Option.bind_eq_bind, Option.bind_some, atPath?]
    | cons next rest =>
      obtain ⟨below, hbelow, hw⟩ := exists_map_of_atPath? h
      rw [setPath, hbelow, atPath?, field?_insert, if_pos rfl]
      exact ih (List.cons_ne_nil next rest) hw

/-- Where there is something at a path, setting it changes nothing that is seen elsewhere. -/
theorem faceAt_setPath (path : List String) : ∀ {es : List (SettingKey × Setting)} {q : List String},
    atPath? path (map es) = some w → ¬path <+: q →
    faceAt (some (map (setPath v path es))) q = faceAt (some (map es)) q := by
  induction path with
  | nil => exact fun _ h ↦ absurd List.nil_prefix h
  | cons key path ih =>
    intro es q h hq
    cases q with
    | nil =>
      cases path <;> rfl
    | cons k q =>
      rw [faceAt_cons, faceAt_cons, Option.bind_some, Option.bind_some]
      cases path with
      | nil =>
        have hne : key ≠ k := fun heq ↦ hq (heq ▸ List.cons_prefix_cons.mpr ⟨rfl, List.nil_prefix⟩)
        rw [setPath, field?_insert, if_neg hne]
        rfl
      | cons next rest =>
        obtain ⟨below, hbelow, hw⟩ := exists_map_of_atPath? h
        rw [setPath, hbelow, field?_insert]
        split
        · next heq =>
          subst heq
          rw [field?, hbelow]
          exact ih hw fun hprefix ↦ hq (List.cons_prefix_cons.mpr ⟨rfl, hprefix⟩)
        · rfl

theorem textual_setPath (hv : Textual v) (path : List String) : ∀ {es : List (SettingKey × Setting)},
    Textual (map es) → Textual (map (setPath v path es)) := by
  induction path with
  | nil => exact fun h ↦ h
  | cons key path ih =>
    intro es h
    cases path with
    | nil => exact h.insert ⟨key, rfl⟩ hv
    | cons next rest =>
      exact h.insert ⟨key, rfl⟩ (ih (textual_entriesOf fun u hu ↦ h.of_find? hu))

/-- A text is seen as it is. -/
theorem faceAt_eq_str_iff {path : List String} {s : String} :
    faceAt (some v) path = some (str s) ↔ atPath? path v = some (str s) := by
  rw [faceAt, Option.bind_some]
  constructor
  · intro h
    obtain ⟨u, hu, hface⟩ := Option.map_eq_some_iff.mp h
    rw [hu, eq_of_face_eq hface rfl]
  · intro h
    rw [h]
    rfl

/-- Nothing is seen below a text. -/
theorem faceAt_below_str {path rest : List String} {s : String} (h : atPath? path v = some (str s))
    (hrest : rest ≠ []) : faceAt (some v) (path ++ rest) = none := by
  induction path generalizing v with
  | nil =>
    obtain ⟨key, rest, rfl⟩ := List.exists_cons_of_ne_nil hrest
    obtain rfl := Option.some.inj h
    rfl
  | cons key path ih =>
    obtain ⟨u, hu, hw⟩ := Option.bind_eq_some_iff.mp h
    rw [List.cons_append, faceAt_cons, Option.bind_some, hu]
    exact ih hw

/-- Over nothing, or over an empty mapping, a change is seen as it is. -/
theorem laidAt_over_nothing (path : List String) : ∀ {existing change : Option Setting},
    existing = none ∨ existing = some (map []) → change.isSome = true →
    laidAt path existing change = faceAt change path := by
  induction path with
  | nil =>
    intro existing change _ hchange
    obtain ⟨v, rfl⟩ := Option.isSome_iff_exists.mp hchange
    rfl
  | cons key path ih =>
    intro existing change hexisting hchange
    obtain ⟨v, rfl⟩ := Option.isSome_iff_exists.mp hchange
    have hbelow : existing.bind (field? key) = none := by
      rcases hexisting with rfl | rfl <;> rfl
    cases hv : v.entries? with
    | none => rw [laidAt_cons key path hv, faceAt_cons, Option.bind_some, field?_eq_none hv, faceAt_none]
    | some es =>
      obtain rfl := eq_map_of_entries? hv
      rw [laidAt_map, faceAt_cons, hbelow, Option.bind_some, field?]
      cases hfind : find? (.text key) es with
      | none => rw [laidAt_none]
      | some w => exact ih (.inl rfl) rfl

/-- A mapping that is merged onto an empty one is the same mapping. -/
theorem exists_merge_nil (h : Textual (map es)) :
    ∃ merged, merge [] es = .ok (map merged) ∧ Textual (map merged) ∧ SameMapping (map merged) (map es) := by
  obtain ⟨merged, hmerged, htextual, hplaces⟩ := exists_merge textual_map_nil h
  exact ⟨merged, hmerged, htextual, fun path ↦
    (faceAt_merged h hplaces path).trans (laidAt_over_nothing path (.inr rfl) rfl)⟩

theorem SameMapping.refl (v : Setting) : SameMapping v v := fun _ ↦ rfl

theorem SameMapping.trans {u : Setting} (h : SameMapping u v) (h' : SameMapping v w) : SameMapping u w :=
  fun path ↦ (h path).trans (h' path)

theorem SameMapping.symm (h : SameMapping v w) : SameMapping w v := fun path ↦ (h path).symm

end Setting

namespace Environment

/-- Without a dollar sign there is no variable. -/
theorem expand_eq_self {environment : Environment} {s : String} (h : '$' ∉ s.toList) :
    environment.expand s = s := by
  have hchars : ∀ (fuel : Nat) (cs : List Char), '$' ∉ cs → environment.expandChars fuel cs = cs := by
    intro fuel
    induction fuel with
    | zero => exact fun cs _ ↦ by rw [expandChars]
    | succ fuel ih =>
      intro cs hcs
      cases cs with
      | nil => rw [expandChars]
      | cons c cs =>
        obtain ⟨hc, hcs⟩ := not_or.mp (mt List.mem_cons.mpr hcs)
        have hplain : ¬(c == '$') = true := by simpa using Ne.symm hc
        rw [expandChars, if_neg hplain, ih cs hcs]
  rw [expand, hchars _ _ h, String.ofList_toList]

end Environment

namespace PathField

/-! ## Resolving a text -/

section Resolve

variable {environment : Environment} {base : Path} {raw s : String}

theorem wellFormed_expandHome {p q : Path} (h : p.WellFormed) (hq : p.expandHome environment = .ok q) :
    q.WellFormed := by
  rw [Path.expandHome] at hq
  cases hparts : p.parts with
  | nil =>
    rw [hparts] at hq
    exact Except.ok.inj hq ▸ h
  | cons first rest =>
    rw [hparts] at hq
    dsimp only at hq
    split at hq
    · split at hq
      · cases hq
      · next d _ =>
        split at hq
        · cases hq
        · obtain rfl := Except.ok.inj hq
          refine ⟨(Path.wellFormed_ofString d).root, List.forall_mem_append.mpr
            ⟨(Path.wellFormed_ofString d).parts, fun n hn ↦ h.parts n ?_⟩⟩
          exact hparts ▸ List.mem_cons_of_mem first hn
    · exact Except.ok.inj hq ▸ h

/-- A text is resolved to an absolute path in normal form. -/
theorem isNormal_resolve (hbase : base.WellFormed) (habsolute : base.isAbsolute = true)
    (h : resolve environment base raw = .ok s) : Path.IsNormal s := by
  obtain ⟨p, hp, hs⟩ := bind_eq_ok.mp h
  have hwell := wellFormed_expandHome (Path.wellFormed_ofString _) hp
  obtain rfl := Except.ok.inj hs
  have hnormal : ∀ {q : Path}, q.WellFormed → q.isAbsolute = true →
      Path.IsNormal (Path.ofString (Path.normalizeText q.toString)).toString := by
    intro q hq hroot
    have hnormal := Path.isNormal_normalizeText hq hroot
    rwa [hnormal.toString_ofString]
  cases hroot : p.isAbsolute with
  | true => exact hnormal hwell hroot
  | false =>
    have hjoin : base.join p = ⟨base.root, base.parts ++ p.parts⟩ := by
      rw [Path.join, hroot, if_neg Bool.false_ne_true]
    rw [if_neg Bool.false_ne_true, hjoin]
    exact hnormal ⟨hbase.root, List.forall_mem_append.mpr ⟨hbase.parts, hwell.parts⟩⟩ habsolute

/-- An absolute path in normal form is resolved to itself. -/
theorem resolve_of_isNormal (h : Path.IsNormal s) (hplain : '$' ∉ s.toList) :
    resolve environment base s = .ok s := by
  have hexpand : (Path.ofString s).expandHome environment = .ok (Path.ofString s) := by
    rw [Path.expandHome]
    split
    · rw [h.isAbsolute, Bool.not_true, Bool.false_and, if_neg Bool.false_ne_true]
    · rfl
  rw [resolve, Environment.expand_eq_self hplain, hexpand]
  refine congrArg Except.ok ?_
  rw [if_pos h.isAbsolute, h.toString_ofString, h.normalizeText_eq, h.toString_ofString]

end Resolve

/-! ## Resolving fields -/

section Fields

variable {environment : Environment} {base : Path} {es r : List (SettingKey × Setting)}

/-- The field holds a text that is not empty. -/
def Holds (es : List (SettingKey × Setting)) (field : List String) (raw : String) : Prop :=
  atPath? field (.map es) = some (.str raw) ∧ raw ≠ ""

theorem holds_congr {es' : List (SettingKey × Setting)} {field : List String}
    (h : faceAt (some (.map es')) field = faceAt (some (.map es)) field) (raw : String) :
    Holds es' field raw ↔ Holds es field raw := by
  rw [Holds, Holds, ← Setting.faceAt_eq_str_iff, h, Setting.faceAt_eq_str_iff]

/-- A field that holds a text is set to what the text is resolved to. -/
theorem resolveField_of_holds {field : List String} {raw : String} (h : Holds es field raw) :
    resolveField environment base es field =
      (resolve environment base raw).map fun s ↦ setPath (.str s) field es := by
  have hne : ¬(raw == "") = true := by simpa using h.2
  rw [resolveField, h.1]
  simp only [if_neg hne]
  cases resolve environment base raw <;> rfl

/-- Any other field is left as it is. -/
theorem resolveField_of_not_holds {field : List String} (h : ∀ raw, ¬Holds es field raw) :
    resolveField environment base es field = .ok es := by
  rw [resolveField]
  split
  · next raw hraw =>
    have hempty : (raw == "") = true := by
      by_contra hne
      exact h raw ⟨hraw, by simpa using hne⟩
    rw [if_pos hempty]
  · rfl

/-- What resolving fields makes of entries. -/
structure Resolved (environment : Environment) (base : Path) (fields : List (List String))
    (es r : List (SettingKey × Setting)) : Prop where
  textual : Textual (.map r)
  at_field : ∀ field ∈ fields, ∀ raw, Holds es field raw →
    ∃ s, resolve environment base raw = .ok s ∧ atPath? field (.map r) = some (.str s)
  elsewhere : ∀ path, (∀ field ∈ fields, field <+: path → ∀ raw, ¬Holds es field raw) →
    faceAt (some (.map r)) path = faceAt (some (.map es)) path

theorem resolved_field {field : List String} (hne : field ≠ []) (hes : Textual (.map es))
    (h : resolveField environment base es field = .ok r) : Resolved environment base [field] es r := by
  by_cases hholds : ∃ raw, Holds es field raw
  · obtain ⟨raw, hraw⟩ := hholds
    rw [resolveField_of_holds hraw] at h
    cases hs : resolve environment base raw with
    | error e =>
      rw [hs] at h
      cases h
    | ok s =>
      rw [hs] at h
      obtain rfl := Except.ok.inj h
      refine ⟨Setting.textual_setPath (.scalar (v := .str s) trivial) field hes, fun f hf raw' hraw' ↦ ?_, fun path hpath ↦ ?_⟩
      · obtain rfl := List.mem_singleton.mp hf
        obtain rfl := Setting.str.inj (Option.some.inj (hraw.1.symm.trans hraw'.1))
        exact ⟨s, hs, Setting.atPath?_setPath f hne hraw.1⟩
      · exact Setting.faceAt_setPath field hraw.1 fun hprefix ↦
          hpath field List.mem_cons_self hprefix raw hraw
  · have hnot := not_exists.mp hholds
    rw [resolveField_of_not_holds hnot] at h
    obtain rfl := Except.ok.inj h
    exact ⟨hes, fun f hf raw hraw ↦ absurd hraw (List.mem_singleton.mp hf ▸ hnot raw), fun _ _ ↦ rfl⟩

/-- **Fields are resolved one by one**, as long as none is below another one. -/
theorem resolved_fields {fields : List (List String)} (hne : ∀ field ∈ fields, field ≠ [])
    (hapart : fields.Pairwise fun f g ↦ ¬f <+: g ∧ ¬g <+: f) : ∀ {es : List (SettingKey × Setting)},
    Textual (.map es) → fields.foldlM (resolveField environment base) es = .ok r →
    Resolved environment base fields es r := by
  induction fields with
  | nil =>
    intro es hes h
    obtain rfl := Except.ok.inj h
    exact ⟨hes, List.forall_mem_nil _, fun _ _ ↦ rfl⟩
  | cons field fields ih =>
    intro es hes h
    obtain ⟨hfield, hfields⟩ := List.forall_mem_cons.mp hne
    obtain ⟨hothers, hrest⟩ := List.pairwise_cons.mp hapart
    obtain ⟨es', hes', h⟩ := bind_eq_ok.mp h
    have hfirst := resolved_field hfield hes hes'
    have hbehind := ih hfields hrest hfirst.textual h
    -- the first field leaves the others as they are, and they leave it as it is set
    have hsame : ∀ g ∈ fields, ∀ raw, Holds es' g raw ↔ Holds es g raw := fun g hg ↦
      holds_congr (hfirst.elsewhere g (List.forall_mem_singleton.mpr fun hprefix ↦
        absurd hprefix (hothers g hg).1))
    refine ⟨hbehind.textual, List.forall_mem_cons.mpr ⟨fun raw hraw ↦ ?_, fun g hg raw hraw ↦ ?_⟩,
      fun path hpath ↦ ?_⟩
    · obtain ⟨s, hs, hset⟩ := hfirst.at_field field List.mem_cons_self raw hraw
      refine ⟨s, hs, Setting.faceAt_eq_str_iff.mp ?_⟩
      rw [hbehind.elsewhere field fun g hg hprefix ↦ absurd hprefix (hothers g hg).2]
      exact Setting.faceAt_eq_str_iff.mpr hset
    · exact hbehind.at_field g hg raw ((hsame g hg raw).mpr hraw)
    · obtain ⟨hat, hpath⟩ := List.forall_mem_cons.mp hpath
      rw [hbehind.elsewhere path fun g hg hprefix raw hraw ↦ hpath g hg hprefix raw ((hsame g hg raw).mp hraw)]
      exact hfirst.elsewhere path (List.forall_mem_singleton.mpr hat)

/-- Where each text of a field is resolved to itself, nothing changes. -/
theorem exists_fixed {fields : List (List String)} (hne : ∀ field ∈ fields, field ≠ []) :
    ∀ {es : List (SettingKey × Setting)}, (∀ field ∈ fields, ∀ s, Holds es field s →
      resolve environment base s = .ok s) →
    ∃ r, fields.foldlM (resolveField environment base) es = .ok r ∧ SameMapping (.map r) (.map es) := by
  induction fields with
  | nil => exact fun _ ↦ ⟨_, rfl, .refl _⟩
  | cons field fields ih =>
    intro es h
    obtain ⟨hfield, hfields⟩ := List.forall_mem_cons.mp hne
    have hfirst : ∃ es', resolveField environment base es field = .ok es' ∧
        SameMapping (.map es') (.map es) := by
      by_cases hholds : ∃ raw, Holds es field raw
      · obtain ⟨raw, hraw⟩ := hholds
        refine ⟨setPath (.str raw) field es, ?_, fun path ↦ ?_⟩
        · rw [resolveField_of_holds hraw, h field List.mem_cons_self raw hraw]
          rfl
        · by_cases hprefix : field <+: path
          · -- the text is set again, and there is nothing below it
            obtain ⟨rest, rfl⟩ := hprefix
            have hset : atPath? field (.map (setPath (.str raw) field es)) = some (.str raw) :=
              Setting.atPath?_setPath field hfield hraw.1
            by_cases hrest : rest = []
            · rw [hrest, List.append_nil, Setting.faceAt_eq_str_iff.mpr hset,
                Setting.faceAt_eq_str_iff.mpr hraw.1]
            · rw [Setting.faceAt_below_str hset hrest, Setting.faceAt_below_str hraw.1 hrest]
          · exact Setting.faceAt_setPath field hraw.1 hprefix
      · exact ⟨es, resolveField_of_not_holds (not_exists.mp hholds), .refl _⟩
    obtain ⟨es', hes', hsame⟩ := hfirst
    obtain ⟨r, hr, hbehind⟩ := ih hfields fun g hg s hs ↦
      h g (List.mem_cons_of_mem field hg) s ((holds_congr (hsame g) s).mp hs)
    refine ⟨r, ?_, hbehind.trans hsame⟩
    rw [List.foldlM_cons, hes']
    exact hr

end Fields

/-! ## Resolving a configuration -/

theorem forall_mem_all_ne_nil : ∀ field ∈ all, field ≠ [] := by decide

theorem pairwise_all : all.Pairwise fun f g ↦ ¬f <+: g ∧ ¬g <+: f := by decide

section Normalize

variable {environment : Environment} {base : Path} {config r : List (SettingKey × Setting)}

/-- A configuration is resolved in a mapping that is the same. -/
theorem normalize_eq_ok (hconfig : Textual (.map config)) (h : normalize environment base config = .ok r) :
    ∃ merged, Setting.merge [] config = .ok (.map merged) ∧ Textual (.map merged) ∧
      SameMapping (.map merged) (.map config) ∧ resolveAll environment base merged = .ok r := by
  obtain ⟨merged, hmerged, htextual, hsame⟩ := Setting.exists_merge_nil hconfig
  rw [normalize, hmerged] at h
  exact ⟨merged, hmerged, htextual, hsame, mapError_eq_ok.mp h⟩

theorem resolved_normalize (hconfig : Textual (.map config)) (h : normalize environment base config = .ok r) :
    Resolved environment base all config r := by
  obtain ⟨merged, -, htextual, hsame, hr⟩ := normalize_eq_ok hconfig h
  have hresolved := resolved_fields forall_mem_all_ne_nil pairwise_all htextual hr
  refine ⟨hresolved.textual, fun field hfield raw hraw ↦ ?_, fun path hpath ↦ ?_⟩
  · exact hresolved.at_field field hfield raw ((holds_congr (hsame field) raw).mpr hraw)
  · rw [hresolved.elsewhere path fun field hfield hprefix raw hraw ↦
      hpath field hfield hprefix raw ((holds_congr (hsame field) raw).mp hraw), hsame]

/-- What a field holds in the end is a normal form. -/
theorem isNormal_of_holds (hresolved : Resolved environment base all config r) (hbase : base.WellFormed)
    (habsolute : base.isAbsolute = true) {field : List String} (hfield : field ∈ all) {s : String}
    (hs : Holds r field s) : Path.IsNormal s := by
  by_cases hholds : ∃ raw, Holds config field raw
  · obtain ⟨raw, hraw⟩ := hholds
    obtain ⟨s', hs', hset⟩ := hresolved.at_field field hfield raw hraw
    obtain rfl := Setting.str.inj (Option.some.inj (hset.symm.trans hs.1))
    exact isNormal_resolve hbase habsolute hs'
  · -- no field goes into another one, so this one is as it was
    have hsame := hresolved.elsewhere field fun g hg hprefix raw hraw ↦ by
      have heq : ∀ f ∈ all, ∀ g ∈ all, g <+: f → g = f := by decide
      exact hholds ⟨raw, heq field hfield g hg hprefix ▸ hraw⟩
    exact absurd ⟨s, (holds_congr hsame s).mp hs⟩ hholds

theorem exists_normalize_again (hresolved : Resolved environment base all config r) (hbase : base.WellFormed)
    (habsolute : base.isAbsolute = true) (hplain : ∀ field ∈ all, ∀ s, Holds r field s → '$' ∉ s.toList)
    (environment' : Environment) (base' : Path) :
    ∃ again, normalize environment' base' r = .ok again ∧ SameMapping (.map again) (.map r) := by
  obtain ⟨merged, hmerged, -, hsame⟩ := Setting.exists_merge_nil hresolved.textual
  have hresolves : ∀ field ∈ all, ∀ s, Holds merged field s → resolve environment' base' s = .ok s := by
    intro field hfield s hs
    have hs := (holds_congr (hsame field) s).mp hs
    exact resolve_of_isNormal (isNormal_of_holds hresolved hbase habsolute hfield hs) (hplain field hfield s hs)
  have hexists : ∃ again, resolveAll environment' base' merged = .ok again ∧
      SameMapping (.map again) (.map merged) := exists_fixed forall_mem_all_ne_nil hresolves
  obtain ⟨again, hagain, hfixed⟩ := hexists
  refine ⟨again, ?_, hfixed.trans hsame⟩
  rw [normalize, hmerged]
  exact mapError_eq_ok.mpr hagain

end Normalize

end PathField

end FeatureAtlas
