import FeatureAtlas.Merge.Pass
import FeatureAtlas.Proofs.Merge.Addition

/-!
# What each pass adds

One membership lemma per pass says which additions it makes, and everything else about the passes is read
off these lemmas. Two consequences hold for every pass. The list that an addition writes determines the
pass: `writer?` gives, for a kind of item and a relationship, the only pass that extends it, and no pass
extends declared tables. And the additions depend on the declarations alone, so they are the same before
and after any other pass.
-/

namespace FeatureAtlas

namespace Merge

/-! ## The additions of a pass -/

theorem mem_ofKind {kind : ItemKind} {items : List Item} {p : Placed} :
    p ∈ ofKind kind items ↔ items[p.2]? = some p.1 ∧ p.1.kind = kind := by
  rw [ofKind, List.mem_filter, List.mem_zipIdx_iff_getElem?, beq_iff_eq]

theorem mem_forward {items : List Item} {analysis : Analysis} {a : Addition} :
    a ∈ forward items analysis ↔ ∃ item usage, items[a.place]? = some item ∧
      (item.kind = .screen ∨ item.kind = .component) ∧
      analysis.usages.lookup item.path = some usage ∧
      (a = ⟨a.place, .usedComponents, usage.components⟩ ∨
        a = ⟨a.place, .usedActions, usage.actions⟩) := by
  rw [forward, List.mem_flatMap]
  constructor
  · rintro ⟨⟨item, place⟩, hitem, ha⟩
    rw [List.mem_zipIdx_iff_getElem?] at hitem
    simp only [Bool.or_eq_true, beq_iff_eq] at ha
    split at ha
    · next hkind =>
      split at ha
      · simp at ha
      · next usage husage =>
        rw [List.mem_cons, List.mem_singleton] at ha
        rcases ha with rfl | rfl
        · exact ⟨item, usage, hitem, hkind, husage, Or.inl rfl⟩
        · exact ⟨item, usage, hitem, hkind, husage, Or.inr rfl⟩
    · simp at ha
  · rintro ⟨item, usage, hitem, hkind, husage, ha⟩
    refine ⟨(item, a.place), List.mem_zipIdx_iff_getElem?.mpr hitem, ?_⟩
    simp only [Bool.or_eq_true, beq_iff_eq, if_pos hkind, husage, List.mem_cons, List.not_mem_nil,
      or_false]
    exact ha

theorem mem_elementUsers {items : List Item} {index : ReverseIndex} {a : Addition} :
    a ∈ elementUsers items index ↔ ∃ item files, items[a.place]? = some item ∧
      users? index item = some files ∧
      (a = ⟨a.place, .usedInScreens, files.flatMap (namesIn items .screen)⟩ ∨
        a = ⟨a.place, .usedInComponents,
          (files.flatMap (namesIn items .component)).filter (· != item.name)⟩) := by
  rw [elementUsers, List.mem_flatMap]
  constructor
  · rintro ⟨⟨item, place⟩, hitem, ha⟩
    rw [List.mem_zipIdx_iff_getElem?] at hitem
    dsimp only at ha
    split at ha
    · simp at ha
    · next files hfiles =>
      rw [List.mem_cons, List.mem_singleton] at ha
      rcases ha with rfl | rfl
      · exact ⟨item, files, hitem, hfiles, Or.inl rfl⟩
      · exact ⟨item, files, hitem, hfiles, Or.inr rfl⟩
  · rintro ⟨item, files, hitem, hfiles, ha⟩
    refine ⟨(item, a.place), List.mem_zipIdx_iff_getElem?.mpr hitem, ?_⟩
    simp only [hfiles, List.mem_cons, List.not_mem_nil, or_false]
    exact ha

theorem mem_moduleUsers {items : List Item} {index : ReverseIndex} {a : Addition} :
    a ∈ moduleUsers items index ↔ ∃ item modulePath files, items[a.place]? = some item ∧
      item.kind = .module ∧ (modulePath, files) ∈ index.modulePaths ∧
      covers modulePath item.path = true ∧ (a.relation, a.names) ∈ importers items files := by
  rw [moduleUsers, List.mem_flatMap]
  constructor
  · rintro ⟨⟨modulePath, files⟩, hpath, ha⟩
    obtain ⟨⟨item, place⟩, hitem, ha⟩ := List.mem_flatMap.mp ha
    obtain ⟨hitem, hcovers⟩ := List.mem_filter.mp hitem
    obtain ⟨hitem, hkind⟩ := mem_ofKind.mp hitem
    obtain ⟨⟨relation, names⟩, hnames, rfl⟩ := List.mem_map.mp ha
    exact ⟨item, modulePath, files, hitem, hkind, hpath, hcovers, hnames⟩
  · rintro ⟨item, modulePath, files, hitem, hkind, hpath, hcovers, hnames⟩
    refine ⟨(modulePath, files), hpath, List.mem_flatMap.mpr ⟨(item, a.place), ?_, ?_⟩⟩
    · exact List.mem_filter.mpr ⟨mem_ofKind.mpr ⟨hitem, hkind⟩, hcovers⟩
    · exact List.mem_map.mpr ⟨(a.relation, a.names), hnames, rfl⟩

theorem mem_tables {items : List Item} {a : Addition} :
    a ∈ tables items ↔ ∃ item, items[a.place]? = some item ∧ item.kind = .table ∧
      a = ⟨a.place, .usedInActions, actionsOn items item.name⟩ := by
  rw [tables, List.mem_map]
  constructor
  · rintro ⟨⟨item, place⟩, hitem, rfl⟩
    obtain ⟨hitem, hkind⟩ := mem_ofKind.mp hitem
    exact ⟨item, hitem, hkind, rfl⟩
  · rintro ⟨item, hitem, hkind, ha⟩
    exact ⟨(item, a.place), mem_ofKind.mpr ⟨hitem, hkind⟩, ha.symm⟩

private theorem mem_getD_find? {α : Type} {p : List α → Bool} {candidates : List (List α)}
    {otherwise : List α} {x : α} (h : x ∈ (candidates.find? p).getD otherwise) :
    (∃ l ∈ candidates, x ∈ l) ∨ x ∈ otherwise := by
  cases hfind : candidates.find? p with
  | none => exact Or.inr (by rwa [hfind, Option.getD_none] at h)
  | some l =>
    rw [hfind, Option.getD_some] at h
    exact Or.inl ⟨l, List.mem_of_find?_eq_some hfind, h⟩

theorem mem_of_mem_resolved {modules : List Placed} {modulePath : String} {target : Placed}
    (h : target ∈ resolved modules modulePath) : target ∈ modules := by
  -- every candidate list is a filter of the modules
  rcases mem_getD_find? h with ⟨found, hfound, htarget⟩ | htarget
  · obtain ⟨path, -, rfl⟩ := List.mem_map.mp hfound
    exact (List.mem_filter.mp htarget).1
  · exact (List.mem_filter.mp htarget).1

theorem mem_moduleLinks {modules : List Placed} {usages : Table FileUsage}
    {source target : Placed} :
    (source, target) ∈ moduleLinks modules usages ↔ ∃ usage path, (source.1.path, usage) ∈ usages ∧
      source ∈ modules ∧ path ∈ usage.modulePaths ∧ target ∈ resolved modules path ∧
      target.1.name ≠ source.1.name := by
  rw [moduleLinks, List.mem_flatMap]
  constructor
  · rintro ⟨⟨file, usage⟩, husage, h⟩
    obtain ⟨s, hs, h⟩ := List.mem_flatMap.mp h
    obtain ⟨path, hpath, h⟩ := List.mem_flatMap.mp h
    obtain ⟨t, ht, heq⟩ := List.mem_map.mp h
    obtain ⟨hs, hfile⟩ := List.mem_filter.mp hs
    obtain ⟨ht, hname⟩ := List.mem_filter.mp ht
    obtain ⟨rfl, rfl⟩ := Prod.mk.inj heq
    rw [beq_iff_eq] at hfile
    exact ⟨usage, path, hfile ▸ husage, hs, hpath, ht, bne_iff_ne.mp hname⟩
  · rintro ⟨usage, path, husage, hs, hpath, ht, hname⟩
    refine ⟨(source.1.path, usage), husage, List.mem_flatMap.mpr ⟨source, ?_, ?_⟩⟩
    · exact List.mem_filter.mpr ⟨hs, beq_self_eq_true _⟩
    · refine List.mem_flatMap.mpr ⟨path, hpath, List.mem_map.mpr ⟨target, ?_, rfl⟩⟩
      exact List.mem_filter.mpr ⟨ht, bne_iff_ne.mpr hname⟩

theorem mem_modules {items : List Item} {analysis : Analysis} {a : Addition} :
    a ∈ modules items analysis ↔ ∃ source target,
      (source, target) ∈ moduleLinks (ofKind .module items) analysis.usages ∧
      (a = ⟨source.2, .usedModules, [target.1.name]⟩ ∨
        a = ⟨target.2, .usedInModules, [source.1.name]⟩) := by
  simp only [modules, List.mem_flatMap, List.mem_cons, List.not_mem_nil, or_false, Prod.exists]

/-! ## The pass that writes a list -/

/-- The pass that extends a relationship of a kind of item. -/
def writer? : ItemKind → Relation → Option Pass
  | .screen, .usedComponents | .screen, .usedActions => some .forward
  | .component, .usedComponents | .component, .usedActions => some .forward
  | .component, .usedInScreens | .component, .usedInComponents => some .reverse
  | .action, .usedInScreens | .action, .usedInComponents => some .reverse
  | .module, .usedInScreens | .module, .usedInComponents | .module, .usedInActions
  | .module, .usedInMiddleware | .module, .usedInLayouts => some .reverse
  | .module, .usedModules | .module, .usedInModules => some .modules
  | .table, .usedInActions => some .tables
  | _, _ => none

theorem writer?_dbTables (kind : ItemKind) : writer? kind .dbTables = none := by
  cases kind <;> rfl

private theorem writer?_of_mem_forward {items : List Item} {analysis : Analysis} {a : Addition}
    (h : a ∈ forward items analysis) :
    ∃ item, items[a.place]? = some item ∧ writer? item.kind a.relation = some .forward := by
  obtain ⟨item, usage, hitem, hkind, -, ha⟩ := mem_forward.mp h
  refine ⟨item, hitem, ?_⟩
  rcases hkind with hkind | hkind <;> rcases ha with ha | ha <;> rw [hkind, ha] <;> rfl

private theorem writer?_of_mem_elementUsers {items : List Item} {index : ReverseIndex}
    {a : Addition} (h : a ∈ elementUsers items index) :
    ∃ item, items[a.place]? = some item ∧ writer? item.kind a.relation = some .reverse := by
  obtain ⟨item, files, hitem, hfiles, ha⟩ := mem_elementUsers.mp h
  refine ⟨item, hitem, ?_⟩
  have hkind : item.kind = .component ∨ item.kind = .action := by
    rw [users?] at hfiles
    split at hfiles
    · next hkind => exact Or.inl hkind
    · next hkind => exact Or.inr hkind
    · cases hfiles
  rcases hkind with hkind | hkind <;> rcases ha with ha | ha <;> rw [hkind, ha] <;> rfl

private theorem writer?_of_mem_moduleUsers {items : List Item} {index : ReverseIndex}
    {a : Addition} (h : a ∈ moduleUsers items index) :
    ∃ item, items[a.place]? = some item ∧ writer? item.kind a.relation = some .reverse := by
  obtain ⟨item, modulePath, files, hitem, hkind, -, -, ha⟩ := mem_moduleUsers.mp h
  refine ⟨item, hitem, ?_⟩
  simp only [importers, List.mem_cons, List.not_mem_nil, or_false, Prod.mk.injEq] at ha
  rcases ha with ⟨ha, -⟩ | ⟨ha, -⟩ | ⟨ha, -⟩ | ⟨ha, -⟩ | ⟨ha, -⟩ <;> rw [hkind, ha] <;> rfl

private theorem writer?_of_mem_tables {items : List Item} {a : Addition} (h : a ∈ tables items) :
    ∃ item, items[a.place]? = some item ∧ writer? item.kind a.relation = some .tables := by
  obtain ⟨item, hitem, hkind, ha⟩ := mem_tables.mp h
  refine ⟨item, hitem, ?_⟩
  rw [hkind, ha]
  rfl

private theorem writer?_of_mem_modules {items : List Item} {analysis : Analysis} {a : Addition}
    (h : a ∈ modules items analysis) :
    ∃ item, items[a.place]? = some item ∧ writer? item.kind a.relation = some .modules := by
  obtain ⟨source, target, hlink, ha⟩ := mem_modules.mp h
  obtain ⟨-, path, -, hsource, -, htarget, -⟩ := mem_moduleLinks.mp hlink
  obtain ⟨hs, hskind⟩ := mem_ofKind.mp hsource
  obtain ⟨ht, htkind⟩ := mem_ofKind.mp (mem_of_mem_resolved htarget)
  rcases ha with rfl | rfl
  · refine ⟨source.1, hs, ?_⟩
    rw [hskind]
    rfl
  · refine ⟨target.1, ht, ?_⟩
    rw [htkind]
    rfl

/-! ## Declarations determine the additions -/

@[simp] theorem declared_kind (item : Item) : item.declared.kind = item.kind := rfl

@[simp] theorem declared_name (item : Item) : item.declared.name = item.name := rfl

@[simp] theorem declared_path (item : Item) : item.declared.path = item.path := rfl

@[simp] theorem declared_dbTables (item : Item) :
    item.declared.links.dbTables = item.links.dbTables := rfl

theorem namesIn_map_declared (items : List Item) :
    namesIn (items.map Item.declared) = namesIn items := by
  funext kind path
  simp only [namesIn, declaredIn, List.filter_map, List.map_map, Function.comp_def,
    declared_kind, declared_name, declared_path]

theorem ofKind_map_declared (kind : ItemKind) (items : List Item) :
    ofKind kind (items.map Item.declared)
      = (ofKind kind items).map (Prod.map Item.declared id) := by
  simp only [ofKind, List.zipIdx_map, List.filter_map, Function.comp_def, Prod.map_fst,
    declared_kind]

private theorem forward_map_declared (items : List Item) (analysis : Analysis) :
    forward (items.map Item.declared) analysis = forward items analysis := by
  rw [forward, List.zipIdx_map, List.flatMap_map]
  rfl

private theorem elementUsers_map_declared (items : List Item) (index : ReverseIndex) :
    elementUsers (items.map Item.declared) index = elementUsers items index := by
  simp only [elementUsers, List.zipIdx_map, List.flatMap_map, Prod.map_fst, Prod.map_snd, id_eq,
    users?, declared_kind, declared_name, namesIn_map_declared]

private theorem moduleUsers_map_declared (items : List Item) (index : ReverseIndex) :
    moduleUsers (items.map Item.declared) index = moduleUsers items index := by
  simp only [moduleUsers, ofKind_map_declared, List.filter_map, List.flatMap_map,
    Function.comp_def, Prod.map_fst, Prod.map_snd, id_eq, importers, namesIn_map_declared,
    declared_path]

private theorem tables_map_declared (items : List Item) :
    tables (items.map Item.declared) = tables items := by
  simp only [tables, actionsOn, ofKind_map_declared, List.map_map, List.filter_map,
    List.flatMap_map, Function.comp_def, Prod.map_fst, Prod.map_snd, id_eq, declared_kind,
    declared_name, declared_dbTables]

theorem resolved_map_declared (modules : List Placed) (modulePath : String) :
    resolved (modules.map (Prod.map Item.declared id)) modulePath
      = (resolved modules modulePath).map (Prod.map Item.declared id) := by
  have hat : ∀ q : Item → Bool, (∀ item : Item, q item.declared = q item) →
      (modules.map (Prod.map Item.declared id)).filter (fun m ↦ q m.1)
        = (modules.filter fun m ↦ q m.1).map (Prod.map Item.declared id) := by
    intro q hq
    simp only [List.filter_map, Function.comp_def, Prod.map_fst, hq]
  have hexact : ∀ paths : List String,
      (paths.map fun path ↦ (modules.map (Prod.map Item.declared id)).filter fun m ↦ m.1.path == path)
        = (paths.map fun path ↦ modules.filter fun m ↦ m.1.path == path).map
            (List.map (Prod.map Item.declared id)) := by
    intro paths
    rw [List.map_map]
    exact List.map_congr_left fun path _ ↦ hat (fun item ↦ item.path == path) fun _ ↦ rfl
  have hnonempty : (fun l : List Placed ↦ !l.isEmpty) ∘ List.map (Prod.map Item.declared id)
      = fun l ↦ !l.isEmpty := by
    funext l
    rw [Function.comp_apply, List.isEmpty_map]
  rw [resolved, resolved]
  dsimp only
  rw [hexact, hat (fun item ↦ directoryOf item.path == _) fun _ ↦ rfl, List.find?_map, hnonempty,
    Option.getD_map]

private theorem modules_map_declared (items : List Item) (analysis : Analysis) :
    modules (items.map Item.declared) analysis = modules items analysis := by
  simp only [modules, moduleLinks, ofKind_map_declared, resolved_map_declared, List.filter_map,
    List.map_map, List.flatMap_map, List.flatMap_assoc, Function.comp_def, Prod.map_fst,
    Prod.map_snd, id_eq, declared_name, declared_path]

end Merge

namespace Pass

open Merge

/-- Every addition of a pass writes a list of which the pass is the writer. -/
theorem writer?_of_mem_additions {pass : Pass} {items : List Item} {analysis : Analysis}
    {a : Addition} (h : a ∈ pass.additions items analysis) :
    ∃ item, items[a.place]? = some item ∧ writer? item.kind a.relation = some pass := by
  cases pass with
  | forward => exact writer?_of_mem_forward h
  | reverse =>
    rcases List.mem_append.mp h with h | h
    · exact writer?_of_mem_elementUsers h
    · exact writer?_of_mem_moduleUsers h
  | tables => exact writer?_of_mem_tables h
  | modules => exact writer?_of_mem_modules h

theorem relation_ne_dbTables {pass : Pass} {items : List Item} {analysis : Analysis}
    {a : Addition} (h : a ∈ pass.additions items analysis) : a.relation ≠ .dbTables := by
  obtain ⟨item, -, hw⟩ := writer?_of_mem_additions h
  intro hr
  rw [hr, writer?_dbTables] at hw
  cases hw

/-- Additions of different passes never meet. -/
theorem apart_of_ne {p q : Pass} (hpq : p ≠ q) {items : List Item} {analysis : Analysis}
    {a b : Addition} (ha : a ∈ p.additions items analysis) (hb : b ∈ q.additions items analysis) :
    Apart a b := by
  intro hplace hrelation
  obtain ⟨item, hitem, hp⟩ := writer?_of_mem_additions ha
  obtain ⟨item', hitem', hq⟩ := writer?_of_mem_additions hb
  rw [← hplace, hitem] at hitem'
  obtain rfl := Option.some.inj hitem'
  rw [← hrelation, hp] at hq
  exact hpq (Option.some.inj hq)

theorem additions_map_declared (pass : Pass) (items : List Item) (analysis : Analysis) :
    pass.additions (items.map Item.declared) analysis = pass.additions items analysis := by
  cases pass with
  | forward => exact forward_map_declared items analysis
  | reverse =>
    rw [additions, additions, Merge.reverse, Merge.reverse, elementUsers_map_declared,
      moduleUsers_map_declared]
  | tables => exact tables_map_declared items
  | modules => exact modules_map_declared items analysis

/-- Items with the same declarations get the same additions. -/
theorem additions_congr {items items' : List Item}
    (h : items.map Item.declared = items'.map Item.declared) (pass : Pass) (analysis : Analysis) :
    pass.additions items analysis = pass.additions items' analysis := by
  rw [← additions_map_declared, h, additions_map_declared]

/-- No pass changes a declaration. -/
theorem map_declared_run (pass : Pass) (items : List Item) (analysis : Analysis) :
    (pass.run items analysis).1.map Item.declared = items.map Item.declared := by
  rw [run, applyAll_fst]
  exact map_declared_foldl_applyOne (fun _ ha ↦ relation_ne_dbTables ha) items

end Pass

end FeatureAtlas
