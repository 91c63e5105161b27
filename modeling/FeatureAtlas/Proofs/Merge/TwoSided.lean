import FeatureAtlas.Proofs.Merge.Views

/-!
# Module links are two-sided

A link between modules is recorded twice and by name: the importer lists what it uses, the imported module
lists who uses it. Modules may share paths and names, and an import may mean a whole directory, so neither
list determines the other. What makes them agree is that the pass writes both entries of a link at once: a
name that a list has gained always stems from a link, and the link has put the other name on the other
side. The two sides are treated alike, so every statement is about one of them and its opposite.
-/

namespace FeatureAtlas

/-- The sides on which a link between modules is recorded. -/
inductive LinkSide where
  | importer
  | imported
deriving DecidableEq, Repr

namespace LinkSide

/-- The other side. -/
def opposite : LinkSide → LinkSide
  | importer => imported
  | imported => importer

/-- The list in which a module at this side records the other one. -/
def relation : LinkSide → Relation
  | importer => .usedModules
  | imported => .usedInModules

/-- The module at this side of a link. -/
def terminal : LinkSide → Placed × Placed → Placed
  | importer => Prod.fst
  | imported => Prod.snd

end LinkSide

namespace Merge

/-- A module of the given name lists `back` in a relationship. -/
def ListsBack (items : List Item) (name : String) (relation : Relation) (back : String) : Prop :=
  ∃ other ∈ items, other.kind = .module ∧ other.name = name ∧ back ∈ other.links.get relation

instance (items : List Item) (name : String) (relation : Relation) (back : String) :
    Decidable (ListsBack items name relation back) :=
  inferInstanceAs (Decidable (∃ other ∈ items, _))

/-- Each name in a module's lists belongs to a module that lists the first one on the other side. -/
def TwoSided (items : List Item) : Prop :=
  ∀ m ∈ items, m.kind = .module → ∀ side : LinkSide, ∀ n ∈ m.links.get side.relation,
    ListsBack items n side.opposite.relation m.name

instance (items : List Item) : Decidable (TwoSided items) :=
  decidable_of_iff (∀ m ∈ items, m.kind = .module → ∀ side ∈ [LinkSide.importer, .imported],
      ∀ n ∈ m.links.get side.relation, ListsBack items n side.opposite.relation m.name)
    ⟨fun h m hm hkind side ↦ h m hm hkind side (by cases side <;> decide),
      fun h m hm hkind side _ ↦ h m hm hkind side⟩

section

variable {items : List Item} {analysis : Analysis} {place : Nat} {n : String}

/-! ## The entries of a link -/

/-- Each side gains the names at the other ends of its links, and nothing else. -/
theorem mem_listAt_modules_run (side : LinkSide) :
    n ∈ listAt (Pass.modules.run items analysis).1 place side.relation ↔
      n ∈ listAt items place side.relation ∨
        ∃ link ∈ moduleLinks (ofKind .module items) analysis.usages,
          (side.terminal link).2 = place ∧ (side.opposite.terminal link).1.name = n := by
  rw [mem_listAt_run]
  refine or_congr_right ⟨?_, ?_⟩
  · rintro ⟨a, ha, rfl, hrelation, hn⟩
    obtain ⟨source, target, hlink, ha⟩ := mem_modules.mp ha
    refine ⟨(source, target), hlink, ?_⟩
    cases side <;> rcases ha with rfl | rfl
    · exact ⟨rfl, (List.mem_singleton.mp hn).symm⟩
    · cases hrelation
    · cases hrelation
    · exact ⟨rfl, (List.mem_singleton.mp hn).symm⟩
  · rintro ⟨⟨source, target⟩, hlink, rfl, rfl⟩
    refine ⟨⟨_, side.relation, [_]⟩, mem_modules.mpr ⟨source, target, hlink, ?_⟩, rfl, rfl,
      List.mem_singleton_self _⟩
    cases side
    · exact Or.inl rfl
    · exact Or.inr rfl

theorem mem_ofKind_terminal {link : Placed × Placed}
    (h : link ∈ moduleLinks (ofKind .module items) analysis.usages) (side : LinkSide) :
    side.terminal link ∈ ofKind .module items := by
  obtain ⟨source, target⟩ := link
  obtain ⟨_, _, -, hsource, -, htarget, -⟩ := mem_moduleLinks.mp h
  cases side
  · exact hsource
  · exact mem_of_mem_resolved htarget

theorem name_terminal_ne {link : Placed × Placed}
    (h : link ∈ moduleLinks (ofKind .module items) analysis.usages) (side : LinkSide) :
    (side.opposite.terminal link).1.name ≠ (side.terminal link).1.name := by
  obtain ⟨source, target⟩ := link
  obtain ⟨_, _, -, -, -, -, hne⟩ := mem_moduleLinks.mp h
  cases side
  · exact hne
  · exact hne.symm

/-! ## Items before and after the pass -/

/-- The same place has the same module before and after the pass, but for its lists. -/
theorem kind_and_name_eq {old new : Item} (hold : items[place]? = some old)
    (hnew : (Pass.modules.run items analysis).1[place]? = some new) :
    new.kind = old.kind ∧ new.name = old.name := by
  have hdeclared : ((Pass.modules.run items analysis).1[place]?).map Item.declared
      = (items[place]?).map Item.declared := by
    rw [← List.getElem?_map, Pass.modules.map_declared_run, List.getElem?_map]
  rw [hold, hnew, Option.map_some, Option.map_some, Option.some.injEq] at hdeclared
  have hkind : new.declared.kind = old.declared.kind := congrArg Item.kind hdeclared
  have hname : new.declared.name = old.declared.name := congrArg Item.name hdeclared
  exact ⟨hkind, hname⟩

/-- What a module lists after the pass, it lists under its name. -/
theorem listsBack_run {m : Item} (hm : items[place]? = some m) (hkind : m.kind = .module)
    {relation : Relation} (h : n ∈ listAt (Pass.modules.run items analysis).1 place relation) :
    ListsBack (Pass.modules.run items analysis).1 m.name relation n := by
  cases hnew : (Pass.modules.run items analysis).1[place]? with
  | none =>
    rw [listAt, hnew] at h
    cases h
  | some new =>
    obtain ⟨hnewKind, hname⟩ := kind_and_name_eq hm hnew
    rw [listAt_of_getElem? hnew] at h
    exact ⟨new, List.mem_of_getElem? hnew, hnewKind.trans hkind, hname, h⟩

/-- What was listed before the pass still is. -/
theorem ListsBack.run {name : String} {side : LinkSide} (h : ListsBack items name side.relation n)
    (analysis : Analysis) :
    ListsBack (Pass.modules.run items analysis).1 name side.relation n := by
  obtain ⟨m, hm, hkind, rfl, hn⟩ := h
  obtain ⟨place, hplace⟩ := List.mem_iff_getElem?.mp hm
  refine listsBack_run hplace hkind ((mem_listAt_modules_run side).mpr (Or.inl ?_))
  rwa [listAt_of_getElem? hplace]

/-- The module at either end of a link lists the one at the other end. -/
theorem listsBack_terminal {link : Placed × Placed}
    (h : link ∈ moduleLinks (ofKind .module items) analysis.usages) (side : LinkSide) :
    ListsBack (Pass.modules.run items analysis).1 (side.terminal link).1.name side.relation
      (side.opposite.terminal link).1.name := by
  obtain ⟨hplace, hkind⟩ := mem_ofKind.mp (mem_ofKind_terminal h side)
  exact listsBack_run hplace hkind ((mem_listAt_modules_run side).mpr (Or.inr ⟨link, h, rfl, rfl⟩))

/-- A name that an item has gained on one side is that of another module, which lists the item back. -/
theorem listsBack_of_gained {old new : Item} (hold : items[place]? = some old)
    (hnew : (Pass.modules.run items analysis).1[place]? = some new) (side : LinkSide)
    (hn : n ∈ new.links.get side.relation) (hgained : n ∉ old.links.get side.relation) :
    new.kind = .module ∧ n ≠ new.name ∧
      ListsBack (Pass.modules.run items analysis).1 n side.opposite.relation new.name := by
  obtain ⟨hkind, hname⟩ := kind_and_name_eq hold hnew
  rw [← listAt_of_getElem? hnew, mem_listAt_modules_run, listAt_of_getElem? hold] at hn
  obtain ⟨link, hlink, hplace, rfl⟩ := hn.resolve_left hgained
  obtain ⟨hitem, hmodule⟩ := mem_ofKind.mp (mem_ofKind_terminal hlink side)
  -- the item at this end of the link is the one at the place
  rw [hplace, hold] at hitem
  obtain rfl := Option.some.inj hitem
  have hback := listsBack_terminal hlink side.opposite
  have hopposite : side.opposite.opposite = side := by cases side <;> rfl
  rw [hopposite] at hback
  exact ⟨hkind.trans hmodule, hname ▸ name_terminal_ne hlink side, hname ▸ hback⟩

end

/-! ## Both sides agree -/

/-- Lists that were two-sided stay two-sided. -/
theorem TwoSided.run {items : List Item} (h : TwoSided items) (analysis : Analysis) :
    TwoSided (Pass.modules.run items analysis).1 := by
  intro new hmem hkind side n hn
  obtain ⟨place, hnew⟩ := List.mem_iff_getElem?.mp hmem
  have hlength := congrArg List.length (Pass.modules.map_declared_run items analysis)
  rw [List.length_map, List.length_map] at hlength
  have hplace : place < items.length := hlength ▸ (List.getElem?_eq_some_iff.mp hnew).1
  have hold : items[place]? = some items[place] := List.getElem?_eq_getElem hplace
  obtain ⟨holdKind, hname⟩ := kind_and_name_eq hold hnew
  by_cases hgained : n ∈ items[place].links.get side.relation
  · rw [hname]
    exact (h _ (List.getElem_mem hplace) (holdKind ▸ hkind) side n hgained).run analysis
  · exact (listsBack_of_gained hold hnew side hn hgained).2.2

/-- **Module links are two-sided.** For all items and usages: each name that the pass adds to one of the
two lists of an item is that of another module, which lists the item on the other side; each import of
another module stands on both sides; and lists that were two-sided stay so. -/
theorem module_links_two_sided (items : List Item) (analysis : Analysis) :
    (∀ (place : Nat) (old new : Item), items[place]? = some old →
      (Pass.modules.run items analysis).1[place]? = some new →
      ∀ (side : LinkSide), ∀ n ∈ new.links.get side.relation, n ∉ old.links.get side.relation →
        new.kind = .module ∧ n ≠ new.name ∧
          ListsBack (Pass.modules.run items analysis).1 n side.opposite.relation new.name) ∧
    (∀ usage source target, (source.1.path, usage) ∈ analysis.usages →
      source ∈ ofKind .module items →
      ∀ path ∈ usage.modulePaths, target ∈ resolved (ofKind .module items) path →
        target.1.name ≠ source.1.name →
        target.1.name ∈ listAt (Pass.modules.run items analysis).1 source.2 .usedModules ∧
          source.1.name ∈ listAt (Pass.modules.run items analysis).1 target.2 .usedInModules) ∧
    (TwoSided items → TwoSided (Pass.modules.run items analysis).1) := by
  refine ⟨fun place old new hold hnew side n hn hgained ↦ ?_, ?_, fun h ↦ h.run analysis⟩
  · exact listsBack_of_gained hold hnew side hn hgained
  · intro usage source target husage hsource path hpath htarget hne
    have hlink := mem_moduleLinks.mpr ⟨usage, path, husage, hsource, hpath, htarget, hne⟩
    exact ⟨(mem_listAt_modules_run .importer).mpr (Or.inr ⟨_, hlink, rfl, rfl⟩),
      (mem_listAt_modules_run .imported).mpr (Or.inr ⟨_, hlink, rfl, rfl⟩)⟩

/-- A module that imports a directory with two modules of one name, one of which imports it back, beside a
link that was there before. -/
theorem module_links_two_sided_directory :
    let items : List Item :=
      [⟨.module, "auth", "lib/auth/client.ts", none, "web", none, none, none, none,
          { usedModules := ["log"] }⟩,
        ⟨.module, "db", "lib/db/read.ts", none, "web", none, none, none, none, {}⟩,
        ⟨.module, "db", "lib/db/write.tsx", none, "web", none, none, none, none, {}⟩,
        ⟨.module, "log", "lib/log.ts", none, "web", none, none, none, none,
          { usedInModules := ["auth"] }⟩]
    let analysis : Analysis := .ofUsages
      [("lib/auth/client.ts", ⟨"lib/auth/client.ts", [], [], [], ["lib/db.ts"]⟩),
        ("lib/db/read.ts", ⟨"lib/db/read.ts", [], [], [], ["lib/auth.ts", "lib/db/write.ts"]⟩)]
    TwoSided items ∧ TwoSided (Pass.modules.run items analysis).1 ∧
      (Pass.modules.run items analysis).1.map (fun m ↦ (m.links.usedModules, m.links.usedInModules))
        = [(["log", "db"], ["db"]), (["auth"], ["auth"]), ([], ["auth"]), ([], ["auth"])] := by
  intro items analysis
  have hitems : TwoSided items := by decide
  exact ⟨hitems, (module_links_two_sided items analysis).2.2 hitems, by decide +kernel⟩

end Merge

end FeatureAtlas
