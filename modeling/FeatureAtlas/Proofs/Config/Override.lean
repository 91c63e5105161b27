import FeatureAtlas.Proofs.Config.Field
import FeatureAtlas.Proofs.Text.Split

/-!
# What overrides set

Overrides are assignments of values to places, a place being a section and a name in it. Both layers of
overrides read their sources one by one and set what they read, so each of them amounts to a list of
assignments, and as no place is assigned twice, the value at a place is the one that was assigned to it.
-/

namespace FeatureAtlas.Override

open Config (Field)

/-! ## Assignments -/

/-- A place with its value. -/
abbrev Assignment := (String × String) × Setting

/-- Sets the value of a place. -/
def assign (t : List (SettingKey × Setting)) (a : Assignment) : List (SettingKey × Setting) :=
  Setting.setPath a.2 [a.1.1, a.1.2] t

/-- The entries that assignments make. -/
def assigned (as : List Assignment) : List (SettingKey × Setting) := as.foldl assign []

/-- The value at a place. -/
def valueAt (t : List (SettingKey × Setting)) (place : String × String) : Option Setting :=
  (Setting.find? (.text place.1) t).bind (Setting.field? place.2)

theorem atPath?_map (f : Field) (t : List (SettingKey × Setting)) :
    Setting.atPath? f.path (.map t) = valueAt t f.place := f.atPath?_path (.map t)

/-- Every section is a mapping, and no key stands twice. -/
structure Sectioned (t : List (SettingKey × Setting)) : Prop where
  oneEach : Setting.OneEach t
  sections : ∀ s v, Setting.find? (.text s) t = some v → ∃ es, v = .map es ∧ Setting.OneEach es

theorem valueAt_assign (t : List (SettingKey × Setting)) (a : Assignment) (place : String × String) :
    valueAt (assign t a) place = if a.1 = place then some a.2 else valueAt t place := by
  obtain ⟨⟨s, f⟩, v⟩ := a
  obtain ⟨s', f'⟩ := place
  simp only [valueAt, assign, Setting.setPath, Setting.find?_insert, SettingKey.text.injEq,
    Prod.mk.injEq]
  by_cases hs : s = s'
  · subst hs
    rw [if_pos rfl, Option.bind_some, Setting.field?, Setting.find?_insert,
      Setting.find?_entriesOf]
    simp only [SettingKey.text.injEq, true_and]
  · rw [if_neg hs, if_neg fun h ↦ hs h.1]

theorem sectioned_assign {t : List (SettingKey × Setting)} (h : Sectioned t) (a : Assignment) :
    Sectioned (assign t a) where
  oneEach := h.oneEach.insert _ _
  sections := by
    intro s v hv
    rw [assign, Setting.setPath, Setting.find?_insert] at hv
    split at hv
    · obtain rfl := Option.some.inj hv
      refine ⟨_, rfl, Setting.OneEach.insert ?_ _ _⟩
      cases hfind : Setting.find? (.text a.1.1) t with
      | none => exact List.nodup_nil
      | some w =>
        obtain ⟨es, rfl, hes⟩ := h.sections _ _ hfind
        exact hes
    · exact h.sections s v hv

private theorem valueAt_foldl_assign {as : List Assignment} (h : (as.map Prod.fst).Nodup)
    (place : String × String) (v : Setting) :
    ∀ t, valueAt (as.foldl assign t) place = some v ↔
      (place, v) ∈ as ∨ (place ∉ as.map Prod.fst ∧ valueAt t place = some v) := by
  induction as with
  | nil => simp
  | cons a as ih =>
    intro t
    obtain ⟨hfresh, hrest⟩ := List.nodup_cons.mp h
    rw [List.foldl_cons, ih hrest, valueAt_assign]
    by_cases hplace : a.1 = place
    · subst hplace
      have hnot : (a.1, v) ∉ as := fun hmem ↦ hfresh (List.mem_map.mpr ⟨_, hmem, rfl⟩)
      simp [hfresh, hnot, Prod.ext_iff, eq_comm]
    · have hne : (place, v) ≠ a := by
        rintro rfl
        exact hplace rfl
      simp [hplace, hne, Ne.symm hplace]

/-- A place has the value that was assigned to it. -/
theorem valueAt_assigned {as : List Assignment} (h : (as.map Prod.fst).Nodup)
    {place : String × String} {v : Setting} :
    valueAt (assigned as) place = some v ↔ (place, v) ∈ as := by
  rw [assigned, valueAt_foldl_assign h]
  simp [valueAt, Setting.find?]

theorem sectioned_assigned (as : List Assignment) : Sectioned (assigned as) := by
  have hrun : ∀ t, Sectioned t → Sectioned (as.foldl assign t) := by
    induction as with
    | nil => exact fun t ht ↦ ht
    | cons a as ih => exact fun t ht ↦ ih _ (sectioned_assign ht a)
  exact hrun [] ⟨List.nodup_nil, nofun⟩

/-! ## Reading one source after the other -/

/-- The assignments that sources give. -/
def assignments {α ε : Type} (read : α → Except ε (Option Assignment)) (sources : List α) :
    List Assignment := sources.filterMap fun e ↦ (read e).toOption.join

/-- Where each step sets what it reads, the whole sets the assignments, and every source was read. -/
theorem foldlM_eq_ok {α ε : Type} {step : List (SettingKey × Setting) → α →
      Except ε (List (SettingKey × Setting))} {read : α → Except ε (Option Assignment)}
    {sources : List α}
    (hstep : ∀ e ∈ sources, ∀ t, step t e = (read e).map fun a ↦ a.elim t (assign t)) :
    ∀ {t out}, sources.foldlM step t = .ok out →
      out = (assignments read sources).foldl assign t ∧ ∀ e ∈ sources, ∃ a, read e = .ok a := by
  induction sources with
  | nil =>
    intro t out h
    exact ⟨(Except.ok.inj h).symm, by simp⟩
  | cons e sources ih =>
    intro t out h
    rw [List.foldlM_cons, hstep e List.mem_cons_self] at h
    obtain ⟨t', ht', h⟩ := bind_eq_ok.mp h
    obtain ⟨hout, hread⟩ := ih (fun e' he' ↦ hstep e' (List.mem_cons_of_mem e he')) h
    cases he : read e with
    | error err =>
      rw [he] at ht'
      cases ht'
    | ok a =>
      rw [he] at ht'
      obtain rfl := Except.ok.inj ht'
      refine ⟨?_, List.forall_mem_cons.mpr ⟨⟨a, he⟩, hread⟩⟩
      rw [hout, assignments, assignments, List.filterMap_cons, he]
      cases a <;> rfl

theorem mem_assignments {α ε : Type} {read : α → Except ε (Option Assignment)} {sources : List α}
    {a : Assignment} : a ∈ assignments read sources ↔ ∃ e ∈ sources, read e = .ok (some a) := by
  rw [assignments, List.mem_filterMap]
  refine exists_congr fun e ↦ and_congr_right fun _ ↦ ?_
  cases read e with
  | error err => exact iff_of_false nofun nofun
  | ok o => cases o <;> simp [Except.toOption]

/-- If a place tells the source of its value, no place is assigned twice. -/
theorem nodup_assignments {α ε : Type} {read : α → Except ε (Option Assignment)}
    {sources : List α} (name : α → String) (nameOf : String × String → String)
    (hnames : (sources.map name).Nodup)
    (hread : ∀ e ∈ sources, ∀ a, read e = .ok (some a) → nameOf a.1 = name e) :
    ((assignments read sources).map Prod.fst).Nodup := by
  induction sources with
  | nil => exact List.nodup_nil
  | cons e sources ih =>
    obtain ⟨hfresh, hrest⟩ := List.nodup_cons.mp hnames
    have hassigned := ih hrest fun e' he' ↦ hread e' (List.mem_cons_of_mem e he')
    cases he : read e with
    | error err =>
      rw [assignments, List.filterMap_cons, he]
      exact hassigned
    | ok o =>
      rw [assignments, List.filterMap_cons, he]
      cases o with
      | none => exact hassigned
      | some a =>
        refine List.nodup_cons.mpr ⟨fun hmem ↦ hfresh ?_, hassigned⟩
        obtain ⟨a', ha', hplace⟩ := List.mem_map.mp hmem
        obtain ⟨e', he', hread'⟩ := mem_assignments.mp ha'
        refine List.mem_map.mpr ⟨e', he', ?_⟩
        rw [← hread e' (List.mem_cons_of_mem e he') a' hread', hplace,
          hread e List.mem_cons_self a he]

/-- The place that a path of two names leads to. -/
def placeOf : List String → String × String
  | [s, f] => (s, f)
  | _ => ("", "")

/-! ## Options -/

/-- A name that can stand between dots. -/
def IsName (s : String) : Prop := s ≠ "" ∧ '.' ∉ s.toList

instance (s : String) : Decidable (IsName s) := inferInstanceAs (Decidable (_ ∧ _))

/-- A section and a name in it, with a dot between them. -/
def Dotted (key : String) : Prop := ∃ s f, IsName s ∧ IsName f ∧ key = s ++ "." ++ f

theorem split_dotted {s f : String} (hs : IsName s) (hf : IsName f) :
    (Text.split '.' (s ++ "." ++ f)).filter (· != "") = [s, f] := by
  have hpieces : Text.split '.' (Text.join "." [s, f]) = [s, f] :=
    Text.split_join rfl (List.cons_ne_nil s [f]) (by simp [hs.2, hf.2])
  rw [Text.join, String.intercalate_cons_cons, String.intercalate_singleton] at hpieces
  rw [hpieces]
  simp [hs.1, hf.1]

/-- What an option assigns. -/
def readOption (e : String × Setting) : Except OverrideError (Option Assignment) :=
  match e.2 with
  | .null => .ok none
  | v => .ok (some (placeOf ((Text.split '.' e.1).filter (· != "")), v))

private theorem addOption_eq {s f : String} (hs : IsName s) (hf : IsName f) (v : Setting)
    (t : List (SettingKey × Setting)) :
    addOption t (s ++ "." ++ f, v)
      = (readOption (s ++ "." ++ f, v)).map fun a ↦ a.elim t (assign t) := by
  have hpath := split_dotted hs hf
  cases v with
  | null => rfl
  | _ =>
    rw [addOption, readOption, hpath]
    rfl

private theorem readOption_eq_some {s f : String} (hs : IsName s) (hf : IsName f) {v : Setting}
    {a : Assignment} :
    readOption (s ++ "." ++ f, v) = .ok (some a) ↔ a = ((s, f), v) ∧ v ≠ .null := by
  have hpath := split_dotted hs hf
  cases v with
  | null => simp [readOption]
  | _ => simp [readOption, hpath, placeOf, eq_comm]

/-- **What options set.** A place has the value of its dotted option, unless that is null. -/
theorem ofOptions_eq_ok {options : Table Setting} {given : List (SettingKey × Setting)}
    (hkeys : options.NodupKeys) (hdotted : ∀ e ∈ options, Dotted e.1)
    (h : ofOptions options = .ok given) :
    Sectioned given ∧ ∀ s f, IsName s → IsName f → ∀ v, valueAt given (s, f) = some v ↔
      options.lookup (s ++ "." ++ f) = some v ∧ v ≠ .null := by
  have hperm := Table.sortKeys_perm options
  have hstep : ∀ e ∈ Text.sortKeys options, ∀ t,
      addOption t e = (readOption e).map fun a ↦ a.elim t (assign t) := by
    intro e he t
    obtain ⟨s, f, hs, hf, hkey⟩ := hdotted e (hperm.mem_iff.mp he)
    obtain ⟨k, v⟩ := e
    subst hkey
    exact addOption_eq hs hf v t
  obtain ⟨rfl, -⟩ := foldlM_eq_ok hstep h
  have hnodup : ((assignments readOption (Text.sortKeys options)).map Prod.fst).Nodup := by
    refine nodup_assignments Prod.fst (fun place ↦ place.1 ++ "." ++ place.2)
      (Table.nodupKeys_sortKeys hkeys) fun e he a ha ↦ ?_
    obtain ⟨s, f, hs, hf, hkey⟩ := hdotted e (hperm.mem_iff.mp he)
    obtain ⟨k, v⟩ := e
    subst hkey
    rw [((readOption_eq_some hs hf).mp ha).1]
  refine ⟨sectioned_assigned _, fun s f hs hf v ↦ ?_⟩
  rw [← assigned, valueAt_assigned hnodup, mem_assignments, Table.lookup_eq_some_iff_mem hkeys]
  constructor
  · rintro ⟨e, he, hread⟩
    obtain ⟨s', f', hs', hf', hkey⟩ := hdotted e (hperm.mem_iff.mp he)
    obtain ⟨k, w⟩ := e
    subst hkey
    obtain ⟨heq, hw⟩ := (readOption_eq_some hs' hf').mp hread
    simp only [Prod.mk.injEq] at heq
    obtain ⟨⟨rfl, rfl⟩, rfl⟩ := heq
    exact ⟨hperm.mem_iff.mp he, hw⟩
  · rintro ⟨hmem, hv⟩
    exact ⟨_, hperm.mem_iff.mpr hmem, (readOption_eq_some hs hf).mpr ⟨rfl, hv⟩⟩

/-! ## Variables -/

private theorem mem_leavesBelow {path : List String} {es : List (SettingKey × Setting)} {k : String}
    {ls : List (List String × Setting)} :
    (k, ls) ∈ leavesBelow path es ↔ ∃ v, (.text k, v) ∈ es ∧ ls = leaves (path ++ [k]) v := by
  induction es with
  | nil => simp [leavesBelow]
  | cons e es ih =>
    obtain ⟨key, v⟩ := e
    cases key with
    | text s =>
      rw [leavesBelow, List.mem_cons, ih]
      constructor
      · rintro (heq | ⟨w, hw, rfl⟩)
        · obtain ⟨rfl, rfl⟩ := Prod.mk.inj heq
          exact ⟨v, List.mem_cons_self, rfl⟩
        · exact ⟨w, List.mem_cons_of_mem _ hw, rfl⟩
      · rintro ⟨w, hw, rfl⟩
        rcases List.mem_cons.mp hw with heq | hmem
        · obtain ⟨hk, rfl⟩ := Prod.mk.inj heq
          obtain rfl := SettingKey.text.inj hk
          exact Or.inl rfl
        · exact Or.inr ⟨w, hmem, rfl⟩
    | _ => simp [leavesBelow, ih]

private theorem mem_leaves_map {path : List String} {es : List (SettingKey × Setting)}
    {leaf : List String × Setting} :
    leaf ∈ leaves path (.map es) ↔ ∃ k v, (.text k, v) ∈ es ∧ leaf ∈ leaves (path ++ [k]) v := by
  have hperm := Table.sortKeys_perm (leavesBelow path es)
  rw [leaves, List.mem_flatMap]
  constructor
  · rintro ⟨⟨k, ls⟩, hmem, hleaf⟩
    obtain ⟨v, hv, rfl⟩ := mem_leavesBelow.mp (hperm.mem_iff.mp hmem)
    exact ⟨k, v, hv, hleaf⟩
  · rintro ⟨k, v, hv, hleaf⟩
    exact ⟨(k, leaves (path ++ [k]) v), hperm.mem_iff.mpr (mem_leavesBelow.mpr ⟨v, hv, rfl⟩), hleaf⟩

private theorem mem_leaves_ofFields {path : List String} {fields : Table Setting}
    {leaf : List String × Setting} :
    leaf ∈ leaves path (.ofFields fields) ↔
      ∃ name v, (name, v) ∈ fields ∧ leaf ∈ leaves (path ++ [name]) v := by
  rw [Setting.ofFields, mem_leaves_map]
  refine exists_congr fun name ↦ exists_congr fun v ↦ and_congr_left fun _ ↦ ?_
  simp

private theorem leaves_of_kind? {path : List String} {v : Setting} {k : OverrideKind}
    (h : kind? v = some k) : leaves path v = [(path, v)] := by
  cases v with
  | map es => cases h
  | _ => rw [leaves]; exact nofun

/-- The leaves of a configuration are its fields. -/
theorem mem_leaves_toSetting {c : Config} {path : List String} {v : Setting} :
    (path, v) ∈ leaves [] c.toSetting ↔ ∃ f : Field, path = f.path ∧ f.value? c = some v := by
  rw [Config.toSetting, mem_leaves_map]
  simp only [Config.mem_entries]
  constructor
  · rintro ⟨s, w, hs, hleaf⟩
    obtain ⟨inner, rfl⟩ := Config.exists_ofFields_of_mem_sections hs
    obtain ⟨name, u, hname, hleaf⟩ := mem_leaves_ofFields.mp hleaf
    obtain ⟨f, hplace, hu⟩ := Field.mem_sections_iff.mp ⟨inner, hs, hname⟩
    rw [leaves_of_kind? (Field.kind?_value? hu), List.mem_singleton] at hleaf
    obtain ⟨rfl, rfl⟩ := Prod.mk.inj hleaf
    refine ⟨f, ?_, hu⟩
    rw [Field.path, ← hplace]
    rfl
  · rintro ⟨f, rfl, hv⟩
    obtain ⟨inner, hs, hname⟩ := Field.mem_sections_iff.mpr ⟨f, rfl, hv⟩
    refine ⟨f.place.1, _, hs, mem_leaves_ofFields.mpr ⟨f.place.2, v, hname, ?_⟩⟩
    rw [leaves_of_kind? (Field.kind?_value? hv)]
    exact List.mem_singleton_self _

private theorem mem_bindingEntries {c : Config} {name : String} {b : Binding} :
    (name, b) ∈ ((leaves [] c.toSetting).filterMap fun (path, v) =>
        if path.head? == some "meta" then none
        else (kind? v).map fun kind => (variableName path, (⟨path, kind⟩ : Binding))) ↔
      ∃ f : Field, f.place.1 ≠ "meta" ∧ (f.value? c).isSome = true ∧ name = f.variableName ∧
        b = ⟨f.path, f.kind⟩ := by
  rw [List.mem_filterMap]
  constructor
  · rintro ⟨⟨path, v⟩, hleaf, hentry⟩
    obtain ⟨f, rfl, hv⟩ := mem_leaves_toSetting.mp hleaf
    simp only [Field.kind?_value? hv, Option.map_some] at hentry
    split at hentry
    · cases hentry
    · next hmeta =>
      obtain ⟨rfl, rfl⟩ := Prod.mk.inj (Option.some.inj hentry)
      exact ⟨f, by simpa [Field.path] using hmeta, by rw [hv]; rfl, rfl, rfl⟩
  · rintro ⟨f, hmeta, hsome, rfl, rfl⟩
    obtain ⟨v, hv⟩ := Option.isSome_iff_exists.mp hsome
    refine ⟨(f.path, v), mem_leaves_toSetting.mpr ⟨f, rfl, hv⟩, ?_⟩
    have hhead : ¬(f.path.head? == some "meta") = true := by simpa [Field.path] using hmeta
    simp only [hhead, Field.kind?_value? hv]
    rfl

private theorem lookup_bindings {c : Config} {name : String} {b : Binding} :
    (bindings c.toSetting).lookup name = some b ↔
      ∃ f : Field, f.place.1 ≠ "meta" ∧ (f.value? c).isSome = true ∧ name = f.variableName ∧
        b = ⟨f.path, f.kind⟩ := by
  rw [bindings, Table.lookup_ofEntries, mem_bindingEntries]
  intro key v w hv hw
  obtain ⟨f, -, -, rfl, rfl⟩ := mem_bindingEntries.mp hv
  obtain ⟨g, -, -, hname, rfl⟩ := mem_bindingEntries.mp hw
  rw [Field.variableName_inj hname]

/-- What a variable assigns. -/
def readVariable (environment : Table String) (e : String × Binding) :
    Except OverrideError (Option Assignment) :=
  match environment.lookup e.1 with
  | none => .ok none
  | some raw => (coerce e.1 e.2 raw).map fun v ↦ some (placeOf e.2.path, v)

private theorem addVariable_eq (environment : Table String) (f : Field)
    (t : List (SettingKey × Setting)) :
    addVariable environment t (f.variableName, ⟨f.path, f.kind⟩)
      = (readVariable environment (f.variableName, ⟨f.path, f.kind⟩)).map fun a ↦
          a.elim t (assign t) := by
  simp only [addVariable, readVariable]
  cases environment.lookup f.variableName with
  | none => rfl
  | some raw =>
    dsimp only
    cases coerce f.variableName ⟨f.path, f.kind⟩ raw <;> rfl

private theorem readVariable_eq_some {environment : Table String} {f : Field} {a : Assignment} :
    readVariable environment (f.variableName, ⟨f.path, f.kind⟩) = .ok (some a) ↔
      ∃ raw v, environment.lookup f.variableName = some raw ∧
        coerce f.variableName ⟨f.path, f.kind⟩ raw = .ok v ∧ a = (f.place, v) := by
  have hplace : placeOf f.path = f.place := rfl
  simp only [readVariable, hplace]
  cases environment.lookup f.variableName with
  | none => simp
  | some raw =>
    cases hv : coerce f.variableName ⟨f.path, f.kind⟩ raw with
    | error e => simp [hv, Except.map]
    | ok v => simp [hv, Except.map, eq_comm]

/-- The variables that are asked are those of the fields that the configuration has. -/
private theorem mem_sortedBindings {c : Config} {e : String × Binding} :
    e ∈ Text.sortKeys (bindings c.toSetting) ↔ ∃ f : Field, f.place.1 ≠ "meta" ∧
      (f.value? c).isSome = true ∧ e = (f.variableName, ⟨f.path, f.kind⟩) := by
  have hnames : (bindings c.toSetting).NodupKeys := Table.nodupKeys_ofEntries _
  rw [(Table.sortKeys_perm _).mem_iff, ← Table.lookup_eq_some_iff_mem hnames, lookup_bindings]
  simp [Prod.ext_iff]

private theorem nodup_variableAssignments (c : Config) (environment : Table String) :
    ((assignments (readVariable environment)
      (Text.sortKeys (bindings c.toSetting))).map Prod.fst).Nodup := by
  have hnames : (bindings c.toSetting).NodupKeys := Table.nodupKeys_ofEntries _
  -- two variables that set one place would have one name
  refine nodup_assignments Prod.fst (fun place ↦ variableName [place.1, place.2])
    (Table.nodupKeys_sortKeys hnames) fun e he a ha ↦ ?_
  obtain ⟨f, -, -, rfl⟩ := mem_sortedBindings.mp he
  obtain ⟨_, _, -, -, rfl⟩ := readVariable_eq_some.mp ha
  rfl

private theorem exists_coerce_of_readVariable {environment : Table String} {f : Field}
    {a : Option Assignment} {raw : String} (hraw : environment.lookup f.variableName = some raw)
    (h : readVariable environment (f.variableName, ⟨f.path, f.kind⟩) = .ok a) :
    ∃ v, coerce f.variableName ⟨f.path, f.kind⟩ raw = .ok v := by
  simp only [readVariable, hraw] at h
  cases hcoerce : coerce f.variableName ⟨f.path, f.kind⟩ raw with
  | error e =>
    rw [hcoerce] at h
    cases h
  | ok v => exact ⟨v, rfl⟩

/-- **What variables set.** A field that the configuration has gets the value of its variable, unless it is
about the configuration itself; and no other variable is read. -/
theorem ofEnvironment_eq_ok {c : Config} {environment : Table String}
    {fromEnvironment : List (SettingKey × Setting)}
    (h : ofEnvironment c.toSetting environment = .ok fromEnvironment) :
    Sectioned fromEnvironment ∧ ∀ f : Field,
      (∀ raw, f.place.1 ≠ "meta" → (f.value? c).isSome = true →
        environment.lookup f.variableName = some raw →
        ∃ v, coerce f.variableName ⟨f.path, f.kind⟩ raw = .ok v ∧
          valueAt fromEnvironment f.place = some v) ∧
      (f.place.1 = "meta" ∨ f.value? c = none ∨ environment.lookup f.variableName = none →
        valueAt fromEnvironment f.place = none) := by
  have hstep : ∀ e ∈ Text.sortKeys (bindings c.toSetting), ∀ t,
      addVariable environment t e = (readVariable environment e).map fun a ↦ a.elim t (assign t) := by
    intro e he t
    obtain ⟨f, -, -, rfl⟩ := mem_sortedBindings.mp he
    exact addVariable_eq environment f t
  obtain ⟨rfl, hread⟩ := foldlM_eq_ok hstep h
  have hnodup := nodup_variableAssignments c environment
  refine ⟨sectioned_assigned _, fun f ↦ ⟨fun raw hmeta hsome hraw ↦ ?_, fun hnone ↦ ?_⟩⟩
  · have hsource := mem_sortedBindings.mpr ⟨f, hmeta, hsome, rfl⟩
    obtain ⟨a, ha⟩ := hread _ hsource
    obtain ⟨v, hv⟩ := exists_coerce_of_readVariable hraw ha
    refine ⟨v, hv, (valueAt_assigned hnodup).mpr (mem_assignments.mpr ⟨_, hsource, ?_⟩)⟩
    exact readVariable_eq_some.mpr ⟨raw, v, hraw, hv, rfl⟩
  · rw [Option.eq_none_iff_forall_ne_some]
    intro v hv
    rw [← assigned, valueAt_assigned hnodup, mem_assignments] at hv
    obtain ⟨e, he, hread⟩ := hv
    obtain ⟨g, hmeta, hsome, rfl⟩ := mem_sortedBindings.mp he
    obtain ⟨raw, w, hraw, -, heq⟩ := readVariable_eq_some.mp hread
    have hfg : f = g := Field.place_inj (Prod.mk.inj heq).1
    subst hfg
    rcases hnone with hnone | hnone | hnone
    · exact hmeta hnone
    · rw [hnone] at hsome
      cases hsome
    · rw [hnone] at hraw
      cases hraw

end FeatureAtlas.Override
