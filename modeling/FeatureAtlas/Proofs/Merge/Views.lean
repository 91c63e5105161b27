import FeatureAtlas.Proofs.Merge.Order
import FeatureAtlas.Proofs.Usage.Inverse

/-!
# The two views of a usage agree

Screens and components record what their files use; components and actions record who uses them. The two
records are written by different passes through different keys: a file's usages by its path, a name's users
by the inverted index. Both are shown to describe the one relation `Uses`, whatever names and paths
coincide. An element never counts as its own user, which is a condition on names and only concerns
components.
-/

namespace FeatureAtlas

/-- The kinds of items that record what they use. -/
inductive UserKind where
  | screen
  | component
deriving DecidableEq, Repr

namespace UserKind

/-- The kind as a kind of items. -/
def kind : UserKind → ItemKind
  | screen => .screen
  | component => .component

/-- The list in which an item is recorded as a user. -/
def relation : UserKind → Relation
  | screen => .usedInScreens
  | component => .usedInComponents

end UserKind

/-- The kinds of items that record their users by name. -/
inductive UsedKind where
  | component
  | action
deriving DecidableEq, Repr

namespace UsedKind

/-- The kind as a kind of items. -/
def kind : UsedKind → ItemKind
  | component => .component
  | action => .action

/-- The list in which an item is recorded as used. -/
def relation : UsedKind → Relation
  | component => .usedComponents
  | action => .usedActions

/-- The names of this kind that a file uses. -/
def names : UsedKind → FileUsage → List String
  | component => FileUsage.components
  | action => FileUsage.actions

end UsedKind

namespace Merge

/-- The file at a path uses a name. -/
def Uses (usages : Table FileUsage) (used : UsedKind) (path name : String) : Prop :=
  ∃ usage, usages.lookup path = some usage ∧ name ∈ used.names usage

/-! ## Lists after a full run -/

theorem mem_listAt_run {pass : Pass} {items : List Item} {analysis : Analysis} {place : Nat}
    {relation : Relation} {n : String} :
    n ∈ listAt (pass.run items analysis).1 place relation ↔
      n ∈ listAt items place relation ∨
        ∃ a ∈ pass.additions items analysis,
          a.place = place ∧ a.relation = relation ∧ n ∈ a.names := by
  rw [Pass.run, applyAll_fst]
  refine mem_listAt_foldl_applyOne fun a ha ↦ ?_
  obtain ⟨item, hitem, -⟩ := Pass.writer?_of_mem_additions ha
  exact (List.getElem?_eq_some_iff.mp hitem).1

theorem mem_listAt_runPasses {s : List Pass} {items : List Item} {analysis : Analysis}
    {place : Nat} {relation : Relation} {n : String} :
    n ∈ listAt (runPasses s items analysis) place relation ↔
      n ∈ listAt items place relation ∨
        ∃ p ∈ s, ∃ a ∈ p.additions items analysis,
          a.place = place ∧ a.relation = relation ∧ n ∈ a.names := by
  induction s generalizing items with
  | nil => simp [runPasses]
  | cons p s ih =>
    -- the additions of the later passes are those that the first items get
    have hsame := fun q : Pass ↦ Pass.additions_congr (p.map_declared_run items analysis) q analysis
    rw [runPasses, List.foldl_cons, ← runPasses, ih, mem_listAt_run, or_assoc]
    simp only [hsame, List.mem_cons, exists_eq_or_imp]

/-- In a full run a list gains what its writer adds to it, and nothing else. -/
theorem mem_listAt_runAll {pass : Pass} {items : List Item} {analysis : Analysis} {place : Nat}
    {item : Item} (hitem : items[place]? = some item) {relation : Relation}
    (hwriter : writer? item.kind relation = some pass) {n : String} :
    n ∈ listAt (runAll items analysis).1 place relation ↔
      n ∈ item.links.get relation ∨
        ∃ a ∈ pass.additions items analysis,
          a.place = place ∧ a.relation = relation ∧ n ∈ a.names := by
  rw [runAll_fst, mem_listAt_runPasses, listAt_of_getElem? hitem]
  refine or_congr_right ⟨?_, ?_⟩
  · rintro ⟨p, -, a, ha, rfl, rfl, hn⟩
    obtain ⟨item', hitem', hp⟩ := Pass.writer?_of_mem_additions ha
    obtain rfl := Option.some.inj (hitem.symm.trans hitem')
    obtain rfl := Option.some.inj (hwriter.symm.trans hp)
    exact ⟨a, ha, rfl, rfl, hn⟩
  · rintro ⟨a, ha, hplace, hrelation, hn⟩
    exact ⟨pass, by cases pass <;> decide, a, ha, hplace, hrelation, hn⟩

/-! ## What an item uses -/

theorem mem_used_runAll {user : UserKind} {items : List Item} {place : Nat} {item : Item}
    (hitem : items[place]? = some item) (hkind : item.kind = user.kind) (used : UsedKind)
    (analysis : Analysis) {n : String} :
    n ∈ listAt (runAll items analysis).1 place used.relation ↔
      n ∈ item.links.get used.relation ∨ Uses analysis.usages used item.path n := by
  have hwriter : writer? item.kind used.relation = some .forward := by
    rw [hkind]
    cases user <;> cases used <;> rfl
  rw [mem_listAt_runAll hitem hwriter]
  refine or_congr_right ⟨?_, ?_⟩
  · rintro ⟨a, ha, rfl, hrelation, hn⟩
    obtain ⟨item', usage, hitem', -, husage, ha⟩ := mem_forward.mp ha
    obtain rfl := Option.some.inj (hitem.symm.trans hitem')
    refine ⟨usage, husage, ?_⟩
    cases used <;> rcases ha with ha | ha <;> rw [ha] at hrelation hn
    · exact hn
    · cases hrelation
    · cases hrelation
    · exact hn
  · rintro ⟨usage, husage, hn⟩
    refine ⟨⟨place, used.relation, used.names usage⟩, mem_forward.mpr ?_, rfl, rfl, hn⟩
    refine ⟨item, usage, hitem, ?_, husage, ?_⟩
    · rw [hkind]
      cases user <;> simp [UserKind.kind]
    · cases used
      · exact Or.inl rfl
      · exact Or.inr rfl

/-! ## Who uses an item -/

theorem mem_namesIn {items : List Item} {kind : ItemKind} {path n : String} :
    n ∈ namesIn items kind path ↔
      ∃ item ∈ items, item.path = path ∧ item.kind = kind ∧ item.name = n := by
  simp only [namesIn, declaredIn, List.mem_map, List.mem_filter, beq_iff_eq, and_assoc]

/-- The index finds the files that use an item. -/
theorem exists_users?_ofUsages {usages : Table FileUsage} (h : usages.NodupKeys) {used : UsedKind}
    {item : Item} (hkind : item.kind = used.kind) :
    ∃ files, users? (.ofUsages usages) item = some files ∧
      ∀ file, file ∈ files ↔ Uses usages used file item.name := by
  have huses : ∀ file, Uses usages used file item.name ↔
      ∃ u, (file, u) ∈ usages ∧ item.name ∈ used.names u := by
    intro file
    simp only [Uses, Table.lookup_eq_some_iff_mem h]
  cases used with
  | component =>
    refine ⟨(ReverseIndex.ofUsages usages).components.values item.name, ?_, fun file ↦ ?_⟩
    · rw [users?, hkind]
      rfl
    · rw [huses, ReverseIndex.mem_components_ofUsages]
      rfl
  | action =>
    refine ⟨(ReverseIndex.ofUsages usages).actions.values item.name, ?_, fun file ↦ ?_⟩
    · rw [users?, hkind]
      rfl
    · rw [huses, ReverseIndex.mem_actions_ofUsages]
      rfl

/-- The names that an element takes from the files that use it. -/
def userNames (items : List Item) (files : List String) (item : Item) : UserKind → List String
  | .screen => files.flatMap (namesIn items .screen)
  | .component => (files.flatMap (namesIn items .component)).filter (· != item.name)

theorem mem_userNames {items : List Item} {files : List String} {item : Item} {user : UserKind}
    {n : String} :
    n ∈ userNames items files item user ↔
      ∃ other ∈ items, other.kind = user.kind ∧ other.name = n ∧
        (user = .component → n ≠ item.name) ∧ other.path ∈ files := by
  have hflat : ∀ kind, n ∈ files.flatMap (namesIn items kind) ↔
      ∃ other ∈ items, other.kind = kind ∧ other.name = n ∧ other.path ∈ files := by
    intro kind
    rw [List.mem_flatMap]
    constructor
    · rintro ⟨file, hfile, hn⟩
      obtain ⟨other, hother, rfl, hkind, hname⟩ := mem_namesIn.mp hn
      exact ⟨other, hother, hkind, hname, hfile⟩
    · rintro ⟨other, hother, hkind, hname, hfile⟩
      exact ⟨other.path, hfile, mem_namesIn.mpr ⟨other, hother, rfl, hkind, hname⟩⟩
  cases user with
  | screen =>
    rw [userNames, hflat]
    simp [UserKind.kind]
  | component =>
    rw [userNames, List.mem_filter, hflat, bne_iff_ne]
    simp only [UserKind.kind, forall_const]
    constructor
    · rintro ⟨⟨other, hother, hkind, hname, hfile⟩, hne⟩
      exact ⟨other, hother, hkind, hname, hne, hfile⟩
    · rintro ⟨other, hother, hkind, hname, hne, hfile⟩
      exact ⟨⟨other, hother, hkind, hname, hfile⟩, hne⟩

/-- The one addition that the reverse pass makes to a list of users of an element. -/
theorem mem_reverse_of_element {items : List Item} {analysis : Analysis} {used : UsedKind}
    {item : Item} {files : List String} {a : Addition} (hitem : items[a.place]? = some item)
    (hkind : item.kind = used.kind) (hfiles : users? analysis.reverse item = some files)
    {user : UserKind} (hrelation : a.relation = user.relation) :
    a ∈ reverse items analysis ↔
      a = ⟨a.place, user.relation, userNames items files item user⟩ := by
  rw [reverse, List.mem_append]
  constructor
  · rintro (ha | ha)
    · obtain ⟨item', files', hitem', hfiles', ha⟩ := mem_elementUsers.mp ha
      obtain rfl := Option.some.inj (hitem.symm.trans hitem')
      obtain rfl := Option.some.inj (hfiles.symm.trans hfiles')
      cases user <;> rcases ha with ha | ha <;> rw [ha] at hrelation ⊢
      · rfl
      · cases hrelation
      · cases hrelation
      · rfl
    · obtain ⟨item', -, -, hitem', hmodule, -⟩ := mem_moduleUsers.mp ha
      obtain rfl := Option.some.inj (hitem.symm.trans hitem')
      rw [hmodule] at hkind
      cases used <;> cases hkind
  · intro ha
    refine Or.inl (mem_elementUsers.mpr ⟨item, files, hitem, hfiles, ?_⟩)
    cases user
    · exact Or.inl ha
    · exact Or.inr ha

theorem mem_user_runAll {items : List Item} {usages : Table FileUsage} (h : usages.NodupKeys)
    {used : UsedKind} {place : Nat} {item : Item} (hitem : items[place]? = some item)
    (hkind : item.kind = used.kind) (user : UserKind) {n : String} :
    n ∈ listAt (runAll items (.ofUsages usages)).1 place user.relation ↔
      n ∈ item.links.get user.relation ∨
        ∃ other ∈ items, other.kind = user.kind ∧ other.name = n ∧
          (user = .component → n ≠ item.name) ∧ Uses usages used other.path item.name := by
  have hwriter : writer? item.kind user.relation = some .reverse := by
    rw [hkind]
    cases user <;> cases used <;> rfl
  obtain ⟨files, hfiles, hmem⟩ := exists_users?_ofUsages h hkind
  rw [mem_listAt_runAll hitem hwriter]
  simp only [← hmem]
  refine or_congr_right ⟨?_, ?_⟩
  · rintro ⟨a, ha, rfl, hrelation, hn⟩
    rw [(mem_reverse_of_element hitem hkind hfiles hrelation).mp ha] at hn
    exact mem_userNames.mp hn
  · intro hn
    refine ⟨⟨place, user.relation, userNames items files item user⟩, ?_, rfl, rfl,
      mem_userNames.mpr hn⟩
    exact (mem_reverse_of_element hitem hkind hfiles rfl).mpr rfl

/-! ## Who declares a table -/

theorem mem_actionsOn {items : List Item} {table n : String} :
    n ∈ actionsOn items table ↔ ∃ action ∈ items, action.kind = .action ∧ action.name = n ∧
      ∃ t ∈ action.links.dbTables, tableKey t = tableKey table := by
  rw [actionsOn, List.mem_flatMap]
  constructor
  · rintro ⟨action, haction, hn⟩
    obtain ⟨haction, hkind⟩ := List.mem_filter.mp haction
    obtain ⟨t, ht, rfl⟩ := List.mem_map.mp hn
    obtain ⟨ht, hkey⟩ := List.mem_filter.mp ht
    exact ⟨action, haction, beq_iff_eq.mp hkind, rfl, t, ht, beq_iff_eq.mp hkey⟩
  · rintro ⟨action, haction, hkind, rfl, t, ht, hkey⟩
    refine ⟨action, List.mem_filter.mpr ⟨haction, beq_iff_eq.mpr hkind⟩, ?_⟩
    exact List.mem_map.mpr ⟨t, List.mem_filter.mpr ⟨ht, beq_iff_eq.mpr hkey⟩, rfl⟩

theorem mem_tableUser_runAll {items : List Item} {place : Nat} {item : Item}
    (hitem : items[place]? = some item) (hkind : item.kind = .table) (analysis : Analysis)
    {n : String} :
    n ∈ listAt (runAll items analysis).1 place .usedInActions ↔
      n ∈ item.links.usedInActions ∨ n ∈ actionsOn items item.name := by
  have hwriter : writer? item.kind .usedInActions = some .tables := by
    rw [hkind]
    rfl
  rw [mem_listAt_runAll hitem hwriter]
  refine or_congr_right ⟨?_, ?_⟩
  · rintro ⟨a, ha, rfl, -, hn⟩
    obtain ⟨item', hitem', -, ha⟩ := mem_tables.mp ha
    obtain rfl := Option.some.inj (hitem.symm.trans hitem')
    rwa [ha] at hn
  · intro hn
    exact ⟨⟨place, .usedInActions, actionsOn items item.name⟩,
      mem_tables.mpr ⟨item, hitem, hkind, rfl⟩, rfl, rfl, hn⟩

/-! ## Agreement -/

/-- **Forward and reverse views agree** after a full run. Where a file of a screen or component uses a
component or action of the list, both record it, except that a component is not recorded as a user of its
own name; every user that a list gains is an item whose file uses the element; and a table gains exactly
the actions that declare it. -/
theorem views_agree (items : List Item) {usages : Table FileUsage} (h : usages.NodupKeys) :
    (∀ (user : UserKind) (used : UsedKind) (i j : Nat) (source target : Item),
      items[i]? = some source → source.kind = user.kind →
      items[j]? = some target → target.kind = used.kind →
      ((user = .component → source.name ≠ target.name) →
        Uses usages used source.path target.name →
        target.name ∈ listAt (runAll items (.ofUsages usages)).1 i used.relation ∧
          source.name ∈ listAt (runAll items (.ofUsages usages)).1 j user.relation) ∧
      (∀ n ∈ listAt (runAll items (.ofUsages usages)).1 j user.relation,
        n ∉ target.links.get user.relation →
        ∃ other ∈ items, other.kind = user.kind ∧ other.name = n ∧
          (user = .component → n ≠ target.name) ∧ Uses usages used other.path target.name)) ∧
    (∀ (j : Nat) (table : Item), items[j]? = some table → table.kind = .table → ∀ n,
      n ∈ listAt (runAll items (.ofUsages usages)).1 j .usedInActions ↔
        n ∈ table.links.usedInActions ∨
          ∃ action ∈ items, action.kind = .action ∧ action.name = n ∧
            ∃ t ∈ action.links.dbTables,
              Text.lower (Text.strip t) = Text.lower (Text.strip table.name)) := by
  refine ⟨?_, ?_⟩
  · intro user used i j source target hsource hskind htarget htkind
    refine ⟨fun hne huses ↦ ⟨?_, ?_⟩, fun n hn hnew ↦ ?_⟩
    · exact (mem_used_runAll hsource hskind used _).mpr (Or.inr huses)
    · refine (mem_user_runAll h htarget htkind user).mpr (Or.inr ?_)
      exact ⟨source, List.mem_of_getElem? hsource, hskind, rfl, hne, huses⟩
    · exact ((mem_user_runAll h htarget htkind user).mp hn).resolve_left hnew
  · intro j table htable hkind n
    rw [mem_tableUser_runAll htable hkind, mem_actionsOn]
    rfl

/-- A file with a screen and a component of the name that it uses: the screen is recorded on both
sides. -/
theorem views_agree_shared_file :
    let items : List Item := [⟨.screen, "Home", "app/home.tsx", none, "web", none, none, none, none, {}⟩,
      ⟨.component, "Card", "app/home.tsx", none, "web", none, none, none, none, {}⟩]
    let usages : Table FileUsage :=
      [("app/home.tsx", ⟨"app/home.tsx", ["Card"], [], [], []⟩), ("app/other.tsx", ⟨"", [], [], [], []⟩)]
    usages.NodupKeys ∧
      "Card" ∈ listAt (runAll items (.ofUsages usages)).1 0 .usedComponents ∧
      "Home" ∈ listAt (runAll items (.ofUsages usages)).1 1 .usedInScreens := by
  intro items usages
  have hkeys : usages.NodupKeys := by decide
  have hagree := (views_agree items hkeys).1 .screen .component 0 1 _ _ rfl rfl rfl rfl
  exact ⟨hkeys, hagree.1 (by decide) ⟨_, rfl, by decide⟩⟩

end Merge

end FeatureAtlas
