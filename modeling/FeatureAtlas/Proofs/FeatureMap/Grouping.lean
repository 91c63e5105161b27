import FeatureAtlas.Proofs.FeatureMap.Artifact
import FeatureAtlas.Proofs.Table
import FeatureAtlas.Proofs.Text.Order
import Mathlib.Algebra.GroupWithZero.Nat

/-!
# The groups partition the items

Placing an item appends its entry to one list of one group and leaves all others alone. Over a run of items,
each list of each group therefore gains, in order, exactly the entries of the items of its kind and feature,
and the keys of the groups gain each feature that is new. The groups are addressed by the feature that leads
to them, so that the uncategorised one is not a case of its own.
-/

namespace FeatureAtlas

/-! ## One group -/

/-- The kind of an entry. -/
def Entry.kind : Entry → ItemKind
  | .screen _ => .screen
  | .component _ => .component
  | .action _ => .action
  | .module _ => .module
  | .table _ => .table

@[simp] theorem Entry.kind_ofItem (item : Item) : (Entry.ofItem item).kind = item.kind := by
  rw [ofItem]
  cases item.kind <;> rfl

namespace FeatureGroup

/-- The entries of one kind. -/
def bucket (g : FeatureGroup) : ItemKind → List Entry
  | .screen => g.screens.map .screen
  | .component => g.components.map .component
  | .action => g.actions.map .action
  | .module => g.modules.map .module
  | .table => g.tables.map .table

@[simp] theorem bucket_empty (kind : ItemKind) : ({} : FeatureGroup).bucket kind = [] := by
  cases kind <;> rfl

theorem bucket_add (g : FeatureGroup) (e : Entry) (kind : ItemKind) :
    (g.add e).bucket kind = g.bucket kind ++ if e.kind = kind then [e] else [] := by
  cases e <;> cases kind <;> simp [add, bucket, Entry.kind]

theorem size_add (g : FeatureGroup) (e : Entry) : (g.add e).size = g.size + 1 := by
  cases e <;> simp only [add, size, List.length_append, List.length_singleton] <;> omega

end FeatureGroup

/-! ## Placing items -/

/-- The feature whose group an item joins, if any; an empty name is no feature. -/
def Item.group? (item : Item) : Option String := item.feature.filter (· != "")

theorem Item.group?_eq_some {item : Item} {f : String} :
    item.group? = some f ↔ f ≠ "" ∧ item.feature = some f := by
  rw [group?, Option.filter_eq_some_iff, bne_iff_ne, and_comm]

theorem Item.group?_eq_none {item : Item} :
    item.group? = none ↔ item.feature = none ∨ item.feature = some "" := by
  rw [group?]
  cases item.feature <;> simp

namespace FeatureMap

/-- The groups while items are placed: those of the features, and that of the other items. -/
abbrev Groups := Table FeatureGroup × FeatureGroup

theorem place_eq (groups : Groups) (item : Item) :
    place groups item = match item.group? with
      | none => (groups.1, groups.2.add (Entry.ofItem item))
      | some f => (groups.1.modify f fun known ↦ (known.getD {}).add (Entry.ofItem item), groups.2) := by
  rw [place, Item.group?]
  cases item.feature with
  | none => rfl
  | some f => by_cases hf : f = "" <;> simp [hf, Option.filter]

/-- The group of a feature, empty where there is none yet, or that of the other items. -/
def groupAt (groups : Groups) : Option String → FeatureGroup
  | none => groups.2
  | some f => (groups.1.lookup f).getD {}

/-- Placing an item changes the one group that it joins. -/
theorem groupAt_place (groups : Groups) (item : Item) (o : Option String) :
    groupAt (place groups item) o =
      if item.group? = o then (groupAt groups o).add (Entry.ofItem item) else groupAt groups o := by
  rw [place_eq]
  cases item.group? with
  | none => cases o <;> simp [groupAt]
  | some f =>
    cases o with
    | none => simp [groupAt]
    | some f' =>
      by_cases hf : f = f'
      · simp [groupAt, hf, Table.lookup_modify_self]
      · simp [groupAt, hf, Table.lookup_modify_of_ne (Ne.symm hf)]

theorem keys_place (groups : Groups) (item : Item) :
    (place groups item).1.map Prod.fst =
      item.group?.toList.foldl appendNew (groups.1.map Prod.fst) := by
  rw [place_eq]
  cases item.group? with
  | none => rfl
  | some f => exact Table.keys_modify f _ _

/-- The number of entries of all groups. -/
def totalSize (groups : Groups) : Nat := (groups.1.map fun e ↦ e.2.size).sum + groups.2.size

theorem sum_size_modify_add (f : String) (e : Entry) (t : Table FeatureGroup) :
    ((t.modify f fun known ↦ (known.getD {}).add e).map fun e ↦ e.2.size).sum =
      (t.map fun e ↦ e.2.size).sum + 1 := by
  induction t with
  | nil => exact FeatureGroup.size_add {} e
  | cons entry rest ih =>
    obtain ⟨k, g⟩ := entry
    rw [Table.modify]
    split
    · rw [List.map_cons, List.sum_cons, Option.getD_some, FeatureGroup.size_add, Nat.add_right_comm]
      rfl
    · rw [List.map_cons, List.sum_cons, ih, List.map_cons, List.sum_cons, Nat.add_assoc]

theorem totalSize_place (groups : Groups) (item : Item) :
    totalSize (place groups item) = totalSize groups + 1 := by
  rw [place_eq, totalSize, totalSize]
  cases item.group? with
  | none => simp only [FeatureGroup.size_add, Nat.add_assoc]
  | some f => simp only [sum_size_modify_add, Nat.add_right_comm]

/-! ## Placing all items -/

/-- Each list of each group gains the entries of its items, in their order. -/
theorem bucket_groupAt_foldl_place (items : List Item) (groups : Groups) (o : Option String)
    (kind : ItemKind) :
    (groupAt (items.foldl place groups) o).bucket kind = (groupAt groups o).bucket kind ++
      (items.filter fun i ↦ i.group? = o ∧ i.kind = kind).map Entry.ofItem := by
  induction items generalizing groups with
  | nil => simp
  | cons item items ih =>
    rw [List.foldl_cons, ih, groupAt_place]
    -- the entry goes in front of those of the later items, and only into the list of its kind
    by_cases ho : item.group? = o
    · by_cases hkind : item.kind = kind <;> simp [ho, hkind, FeatureGroup.bucket_add]
    · simp [ho]

theorem keys_foldl_place (items : List Item) (groups : Groups) :
    (items.foldl place groups).1.map Prod.fst =
      (items.filterMap Item.group?).foldl appendNew (groups.1.map Prod.fst) := by
  induction items generalizing groups with
  | nil => rfl
  | cons item items ih =>
    rw [List.foldl_cons, ih, keys_place, ← List.foldl_append]
    cases h : item.group? <;> simp [h]

theorem totalSize_foldl_place (items : List Item) (groups : Groups) :
    totalSize (items.foldl place groups) = totalSize groups + items.length := by
  induction items generalizing groups with
  | nil => rfl
  | cons item items ih =>
    rw [List.foldl_cons, ih, totalSize_place, List.length_cons, Nat.add_right_comm, Nat.add_assoc]

/-- The features of all items, each once. -/
theorem keys_foldl_place_nil (items : List Item) :
    (items.foldl place ([], {})).1.map Prod.fst = distinct (items.filterMap Item.group?) :=
  keys_foldl_place items ([], {})

theorem nodupKeys_foldl_place (items : List Item) : (items.foldl place ([], {})).1.NodupKeys := by
  rw [Table.NodupKeys, keys_foldl_place_nil]
  exact nodup_distinct _

/-! ## The map -/

/-- A map holds each item once, where it belongs. -/
structure Partitions (items : List Item) (m : FeatureMap) : Prop where
  /-- The features are those of the items, in order of first appearance. -/
  keys : m.features.map Prod.fst = distinct ((items.filterMap (·.feature)).filter (· != ""))
  /-- The group of a feature holds, by kind and in order, the entries of its items. -/
  features : ∀ f group, (f, group) ∈ m.features → ∀ kind, group.bucket kind =
    (items.filter fun i ↦ i.feature = some f ∧ i.kind = kind).map Entry.ofItem
  /-- So does the uncategorised group for the items that name no feature. -/
  uncategorized : ∀ kind, m.uncategorized.bucket kind =
    (items.filter fun i ↦ (i.feature = none ∨ i.feature = some "") ∧ i.kind = kind).map Entry.ofItem
  sizes : (m.features.map fun e ↦ e.2.size).sum + m.uncategorized.size = items.length
  /-- The apps are strictly ascending. -/
  apps : m.apps.Pairwise (· < ·)
  mem_apps : ∀ app, app ∈ m.apps ↔ app ≠ "" ∧ app ≠ Projection.unknownApp ∧ ∃ i ∈ items, i.app = app

/-- A table holds the entries of another one in the ascending order of their keys. -/
structure InKeyOrder {α : Type} (given written : Table α) : Prop where
  ascending : (written.map Prod.fst).Pairwise (· < ·)
  perm : written.Perm given

theorem inKeyOrder_sortKeys {α : Type} {t : Table α} (h : t.NodupKeys) :
    InKeyOrder t (Text.sortKeys t) :=
  ⟨Text.pairwise_lt_mergeSort h, Table.sortKeys_perm t⟩

theorem pairwise_appsOf (items : List Item) : (appsOf items).Pairwise (· < ·) :=
  Text.pairwise_lt_sort (nodup_eraseDups _)

theorem mem_appsOf {items : List Item} {app : String} : app ∈ appsOf items ↔
    app ≠ "" ∧ app ≠ Projection.unknownApp ∧ ∃ i ∈ items, i.app = app := by
  rw [appsOf, Text.sort, List.mem_mergeSort, List.mem_eraseDups, List.mem_filter, List.mem_map]
  simp only [Bool.and_eq_true, bne_iff_ne]
  rw [and_comm, and_assoc]

variable {items : List Item} {descriptions : Table String} {types : Table (List ExportedType)}
  {utilities : Table (List Utility)} {now : DateTime}

theorem build?_eq :
    build? items descriptions types utilities now = now.timestamp?.map fun stamp ↦
      { features := (items.foldl place ([], {})).1
        uncategorized := (items.foldl place ([], {})).2
        moduleDescriptions := Text.sortKeys descriptions
        moduleTypes := Text.sortKeys types
        moduleUtilities := Text.sortKeys utilities
        apps := appsOf items
        generatedAt := stamp } := by
  rw [build?]
  cases now.timestamp? <;> rfl

/-- Every map that is built has each key once in its tables. -/
theorem keyed_of_build? (hdescriptions : descriptions.NodupKeys) (htypes : types.NodupKeys)
    (hutilities : utilities.NodupKeys) {m : FeatureMap}
    (h : build? items descriptions types utilities now = some m) : m.Keyed := by
  rw [build?_eq] at h
  obtain ⟨stamp, -, rfl⟩ := Option.map_eq_some_iff.mp h
  exact ⟨nodupKeys_foldl_place items, Table.nodupKeys_sortKeys hdescriptions,
    Table.nodupKeys_sortKeys htypes, Table.nodupKeys_sortKeys hutilities⟩

/-- **The map partitions the items.** At each time of the calendar there is a map, in which every item stands
once, in the group of its feature and the list of its kind, in the given order; the apps are listed once
each, and the modules' tables are in the order of their names. -/
theorem build_partitions (items : List Item) (hdescriptions : descriptions.NodupKeys)
    (htypes : types.NodupKeys) (hutilities : utilities.NodupKeys) {stamp : String}
    (hnow : now.timestamp? = some stamp) :
    ∃ m, build? items descriptions types utilities now = some m ∧ Partitions items m ∧
      InKeyOrder descriptions m.moduleDescriptions ∧ InKeyOrder types m.moduleTypes ∧
      InKeyOrder utilities m.moduleUtilities := by
  have hkeys := keys_foldl_place_nil items
  have hbucket := bucket_groupAt_foldl_place items ([], {})
  rw [build?_eq, hnow]
  refine ⟨_, rfl, ?_, inKeyOrder_sortKeys hdescriptions, inKeyOrder_sortKeys htypes,
    inKeyOrder_sortKeys hutilities⟩
  constructor
  case keys =>
    rw [List.filter_filterMap]
    exact hkeys
  case features =>
    intro f group hmem kind
    -- the keys are features of items, so the empty name is not among them
    have hf : f ≠ "" := by
      have hkey : f ∈ distinct (items.filterMap Item.group?) := hkeys ▸ List.mem_map.mpr ⟨_, hmem, rfl⟩
      obtain ⟨i, -, hi⟩ := List.mem_filterMap.mp (mem_distinct.mp hkey)
      exact (Item.group?_eq_some.mp hi).1
    have hgroup := hbucket (some f) kind
    rw [groupAt, (Table.lookup_eq_some_iff_mem (nodupKeys_foldl_place items)).mpr hmem, Option.getD_some] at hgroup
    simpa [groupAt, Item.group?_eq_some, hf] using hgroup
  case uncategorized =>
    intro kind
    simpa [groupAt, Item.group?_eq_none] using hbucket none kind
  case sizes => simpa [totalSize, FeatureGroup.size] using totalSize_foldl_place items ([], {})
  case apps => exact pairwise_appsOf items
  case mem_apps => exact fun _ ↦ mem_appsOf

/-- A screen and an action of one feature, a module of another, and an action with an empty feature. -/
theorem build_partitions_two_features :
    let home : Item := {
      kind := .screen, name := "Home", path := "apps/web/app/page.tsx", feature := some "start"
      app := "web" }
    let log : Item := {
      kind := .module, name := "log", path := "packages/log/index.ts", feature := some "audit" }
    let approve : Item := {
      kind := .action, name := "approve", path := "apps/admin/actions/approve.ts"
      feature := some "start", app := "admin" }
    let close : Item := {
      kind := .action, name := "close", path := "apps/web/actions/close.ts", feature := some ""
      app := "web" }
    let descriptions := [("log", "Writes the log."), ("auth", "")]
    let now : DateTime := ⟨⟨2026, 3, 1⟩, 12, 30, 0, 0, some 60⟩
    (Table.NodupKeys descriptions ∧ now.timestamp? = some "2026-03-01T11:30:00.000Z") ∧
    ∃ m, build? [home, log, approve, close] descriptions [] [] now = some m ∧
      m.features.map Prod.fst = ["start", "audit"] ∧
      (∀ group, ("start", group) ∈ m.features → group.bucket .action = [Entry.ofItem approve]) ∧
      m.uncategorized.bucket .action = [Entry.ofItem close] ∧ m.apps.Pairwise (· < ·) ∧
      InKeyOrder descriptions m.moduleDescriptions := by
  intro home log approve close descriptions now
  have hdescriptions : Table.NodupKeys descriptions := by decide
  have hnow : now.timestamp? = some "2026-03-01T11:30:00.000Z" := by decide +kernel
  obtain ⟨m, hm, hitems, hordered, -, -⟩ := @build_partitions descriptions [] [] now
    [home, log, approve, close] hdescriptions List.nodup_nil List.nodup_nil _ hnow
  refine ⟨⟨hdescriptions, hnow⟩, m, hm, ?_, fun group hgroup ↦ ?_, ?_, hitems.apps, hordered⟩
  · rw [hitems.keys]
    decide
  · rw [hitems.features _ _ hgroup]
    decide
  · rw [hitems.uncategorized]
    decide

end FeatureMap

end FeatureAtlas
