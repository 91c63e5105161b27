import FeatureAtlas.Proofs.Merge.Views
import FeatureAtlas.Proofs.Path.SourceFile

/-!
# Two readings of an imported path

An imported path is read twice. The pass that links modules resolves it: the module at the path, else at its
other ending, else at an index file, else in the directory of that name. The pass that records users covers
with it: the module at the path and all below the directory of that name. On paths of module files the two
agree but for one step. A module at the other ending stands neither at the path nor below the directory, so
it is linked to modules that import it, and records no other importer.
-/

namespace FeatureAtlas

/-- A specifier resolves to a path with a module ending. -/
theorem Import.exists_ending_of_resolve? {aliases : List String} {importer specifier path : String}
    (h : Import.resolve? aliases importer specifier = some path) :
    ∃ stem, ∃ ending ∈ Merge.moduleEndings, path = stem ++ ending := by
  have hwith : ∀ p : String, ∃ stem, ∃ ending ∈ Merge.moduleEndings,
      Import.withEnding p = stem ++ ending := by
    intro p
    rw [Import.withEnding]
    split
    · next hends =>
      rw [Bool.or_eq_true, Text.endsWith_iff, Text.endsWith_iff] at hends
      rcases hends with ⟨stem, rfl⟩ | ⟨stem, rfl⟩
      · exact ⟨stem, ".ts", by decide, rfl⟩
      · exact ⟨stem, ".tsx", by decide, rfl⟩
    · exact ⟨p, ".ts", by decide, rfl⟩
  rw [Import.resolve?] at h
  split at h
  · obtain ⟨app, -, rfl⟩ := Option.map_eq_some_iff.mp h
    exact hwith _
  · split at h
    · rw [← Option.some.inj h]
      exact hwith _
    · cases h

namespace Merge

/-- A module stands at a path. -/
def Taken (modules : List Placed) (path : String) : Prop := ∃ m ∈ modules, m.1.path = path

instance (modules : List Placed) (path : String) : Decidable (Taken modules path) :=
  inferInstanceAs (Decidable (∃ m ∈ modules, _))

/-- The modules at a path. -/
def standingAt (modules : List Placed) (path : String) : List Placed :=
  modules.filter fun m ↦ m.1.path == path

section

variable {modules : List Placed} {path : String} {m : Placed}

theorem mem_standingAt : m ∈ standingAt modules path ↔ m ∈ modules ∧ m.1.path = path := by
  rw [standingAt, List.mem_filter, beq_iff_eq]

theorem isEmpty_standingAt : (standingAt modules path).isEmpty = true ↔ ¬ Taken modules path := by
  rw [List.isEmpty_iff, List.eq_nil_iff_forall_not_mem]
  simp only [mem_standingAt, Taken, not_exists]

/-! ## Resolution step by step -/

theorem find?_standingAt_of_taken (h : Taken modules path) (paths : List String) :
    ((path :: paths).map (standingAt modules)).find? (!·.isEmpty) = some (standingAt modules path) := by
  have hfull : (!(standingAt modules path).isEmpty) = true := by
    rw [Bool.not_eq_true', ← Bool.not_eq_true, isEmpty_standingAt]
    exact fun hnot ↦ hnot h
  rw [List.map_cons, List.find?_cons, hfull]

theorem find?_standingAt_of_not_taken (h : ¬ Taken modules path) (paths : List String) :
    ((path :: paths).map (standingAt modules)).find? (!·.isEmpty)
      = (paths.map (standingAt modules)).find? (!·.isEmpty) := by
  rw [List.map_cons, List.find?_cons_of_neg]
  simpa using isEmpty_standingAt.mpr h

variable {stem ending : String}

theorem resolved_append (h : ending ∈ moduleEndings) :
    resolved modules (stem ++ ending)
      = (([stem ++ ending, stem ++ ".tsx", stem ++ "/index.ts", stem ++ "/index.tsx"].map
          (standingAt modules)).find? (!·.isEmpty)).getD
            (modules.filter fun m ↦ directoryOf m.1.path == stem) := by
  rw [resolved, dropEnding_append h]
  rfl

theorem resolved_of_taken (h : ending ∈ moduleEndings) (hpath : Taken modules (stem ++ ending)) :
    resolved modules (stem ++ ending) = standingAt modules (stem ++ ending) := by
  rw [resolved_append h, find?_standingAt_of_taken hpath, Option.getD_some]

/-- Where no module stands at the path, those at the other ending are taken. -/
theorem resolved_of_other_taken (h : ending ∈ moduleEndings)
    (hpath : ¬ Taken modules (stem ++ ending)) (hother : Taken modules (stem ++ ".tsx")) :
    resolved modules (stem ++ ending) = standingAt modules (stem ++ ".tsx") := by
  rw [resolved_append h, find?_standingAt_of_not_taken hpath, find?_standingAt_of_taken hother,
    Option.getD_some]

/-- Where no module stands at either ending, what is found is below the directory of that name. -/
theorem startsWith_of_mem_resolved (h : ending ∈ moduleEndings)
    (hform : ∀ m ∈ modules, IsModuleFile m.1.path) (hpath : ¬ Taken modules (stem ++ ending))
    (hother : ¬ Taken modules (stem ++ ".tsx")) (hm : m ∈ resolved modules (stem ++ ending)) :
    Text.startsWith m.1.path (stem ++ "/") = true := by
  rw [resolved_append h, find?_standingAt_of_not_taken hpath,
    find?_standingAt_of_not_taken hother] at hm
  cases hfound : ([stem ++ "/index.ts", stem ++ "/index.tsx"].map
      (standingAt modules)).find? (!·.isEmpty) with
  | some found =>
    rw [hfound, Option.getD_some] at hm
    obtain ⟨index, hindex, rfl⟩ := List.mem_map.mp (List.mem_of_find?_eq_some hfound)
    rw [(mem_standingAt.mp hm).2, Text.startsWith_iff]
    rw [List.mem_cons, List.mem_singleton] at hindex
    rcases hindex with rfl | rfl
    · exact ⟨"index.ts", by rw [String.append_assoc]; rfl⟩
    · exact ⟨"index.tsx", by rw [String.append_assoc]; rfl⟩
  | none =>
    rw [hfound, Option.getD_none] at hm
    obtain ⟨hmem, hdirectory⟩ := List.mem_filter.mp hm
    rw [← beq_iff_eq.mp hdirectory]
    exact (hform m hmem).startsWith_directoryOf

/-! ## Coverage -/

theorem covers_iff {modulePath : String} :
    covers modulePath path = true ↔
      path = modulePath ∨ Text.startsWith path (Text.removeSuffix modulePath ".ts" ++ "/") = true := by
  rw [covers, Bool.or_eq_true, beq_iff_eq]

theorem covers_ts_iff :
    covers (stem ++ ".ts") path = true ↔
      path = stem ++ ".ts" ∨ Text.startsWith path (stem ++ "/") = true := by
  rw [covers_iff, Text.removeSuffix_append]

theorem covers_tsx_iff :
    covers (stem ++ ".tsx") path = true ↔
      path = stem ++ ".tsx" ∨ Text.startsWith path (stem ++ ".tsx/") = true := by
  have hends : Text.endsWith (stem ++ ".tsx") ".ts" = false := by
    simp [Text.endsWith, List.isSuffixOf, List.isPrefixOf]
  rw [covers_iff, Text.removeSuffix_of_not_endsWith hends, String.append_assoc]
  rfl

/-- Two ways to go on after a stem that start differently. -/
theorem not_startsWith_append {behind other : String} (h : ¬ other.toList <+: behind.toList) :
    Text.startsWith (stem ++ behind) (stem ++ other) = false := by
  rw [← Bool.not_eq_true, Text.startsWith, List.isPrefixOf_iff_prefix, String.toList_append,
    String.toList_append, List.prefix_append_right_inj]
  exact h

theorem not_covers_other : covers (stem ++ ".ts") (stem ++ ".tsx") = false := by
  rw [← Bool.not_eq_true, covers_ts_iff, not_or]
  refine ⟨fun h ↦ ?_, ?_⟩
  · exact absurd (String.append_right_inj stem |>.mp h) (by decide)
  · rw [not_startsWith_append (by decide)]
    exact Bool.false_ne_true

/-! ## Where the two readings agree -/

/-- A module stands at the path, or the path has the usual ending and no module stands at the other one, or
nothing is found. -/
def ReadAlike (modules : List Placed) (path : String) : Prop :=
  Taken modules path ∨ (∃ stem, path = stem ++ ".ts" ∧ ¬ Taken modules (stem ++ ".tsx")) ∨
    resolved modules path = []

theorem readAlike_append_iff (h : ending ∈ moduleEndings) :
    ReadAlike modules (stem ++ ending) ↔
      Taken modules (stem ++ ending) ∨ (ending = ".ts" ∧ ¬ Taken modules (stem ++ ".tsx")) ∨
        resolved modules (stem ++ ending) = [] := by
  have hstem : (∃ s, stem ++ ending = s ++ ".ts" ∧ ¬ Taken modules (s ++ ".tsx")) ↔
      ending = ".ts" ∧ ¬ Taken modules (stem ++ ".tsx") := by
    constructor
    · rintro ⟨s, heq, hother⟩
      have hs := congrArg (Projection.dropEnding moduleEndings) heq
      rw [dropEnding_append h, dropEnding_append (by decide)] at hs
      subst hs
      exact ⟨(String.append_right_inj stem).mp heq, hother⟩
    · rintro ⟨rfl, hother⟩
      exact ⟨stem, rfl, hother⟩
  rw [ReadAlike, hstem]

/-- The path covers all that it resolves to exactly if it is read alike. -/
theorem covers_resolved_iff (h : ending ∈ moduleEndings)
    (hform : ∀ m ∈ modules, IsModuleFile m.1.path) :
    (∀ m ∈ resolved modules (stem ++ ending), covers (stem ++ ending) m.1.path = true) ↔
      ReadAlike modules (stem ++ ending) := by
  rw [readAlike_append_iff h]
  by_cases hpath : Taken modules (stem ++ ending)
  · refine iff_of_true (fun m hm ↦ ?_) (Or.inl hpath)
    rw [resolved_of_taken h hpath, mem_standingAt] at hm
    exact covers_iff.mpr (Or.inl hm.2)
  · rcases mem_moduleEndings.mp h with rfl | rfl
    -- the usual ending: all that is found is below the directory, unless the other ending is taken
    · constructor
      · refine fun hcovers ↦ Or.inr (Or.inl ⟨rfl, fun hother ↦ ?_⟩)
        have hresolved := resolved_of_other_taken h hpath hother
        obtain ⟨m, hm, hmpath⟩ := hother
        have hcover := hcovers m (hresolved ▸ mem_standingAt.mpr ⟨hm, hmpath⟩)
        rw [hmpath, not_covers_other] at hcover
        exact Bool.false_ne_true hcover
      · rintro (htaken | ⟨-, hother⟩ | hnone) m hm
        · exact absurd htaken hpath
        · exact covers_ts_iff.mpr (Or.inr (startsWith_of_mem_resolved h hform hpath hother hm))
        · rw [hnone] at hm
          cases hm
    -- the other ending: it is kept by coverage, so nothing below the directory is covered
    · constructor
      · refine fun hcovers ↦ Or.inr (Or.inr (List.eq_nil_iff_forall_not_mem.mpr fun m hm ↦ ?_))
        have hbelow := startsWith_of_mem_resolved h hform hpath hpath hm
        obtain ⟨rest, hrest⟩ := Text.startsWith_iff.mp hbelow
        rcases covers_tsx_iff.mp (hcovers m hm) with hself | hcover
        · exact hpath ⟨m, mem_of_mem_resolved hm, hself⟩
        · rw [hrest, String.append_assoc, not_startsWith_append (by simp)] at hcover
          exact Bool.false_ne_true hcover
      · rintro (htaken | ⟨hending, -⟩ | hnone) m hm
        · exact absurd htaken hpath
        · exact absurd hending (by decide)
        · rw [hnone] at hm
          cases hm

end

/-! ## What an importing file leaves on a module -/

/-- How the file of an import is to be recorded on a module: middleware and layouts by their app, any other
file by its screens, components and actions. -/
inductive RecordedAs (items : List Item) (file : String) : Relation → String → Prop
  | middleware (h : Projection.isMiddlewareFile file = true) :
      RecordedAs items file .usedInMiddleware (Projection.appLabel file ++ " Middleware")
  | layout (h : Projection.isMiddlewareFile file = false) (h' : Projection.isLayoutFile file = true) :
      RecordedAs items file .usedInLayouts (Projection.appLabel file ++ " Layout")
  | screen (h : Projection.isMiddlewareFile file = false) (h' : Projection.isLayoutFile file = false)
      {user : Item} (hmem : user ∈ items) (hpath : user.path = file) (hkind : user.kind = .screen) :
      RecordedAs items file .usedInScreens user.name
  | component (h : Projection.isMiddlewareFile file = false)
      (h' : Projection.isLayoutFile file = false) {user : Item} (hmem : user ∈ items)
      (hpath : user.path = file) (hkind : user.kind = .component) :
      RecordedAs items file .usedInComponents user.name
  | action (h : Projection.isMiddlewareFile file = false) (h' : Projection.isLayoutFile file = false)
      {user : Item} (hmem : user ∈ items) (hpath : user.path = file) (hkind : user.kind = .action) :
      RecordedAs items file .usedInActions user.name

section

variable {items : List Item} {file n : String} {relation : Relation} {files : List String}

theorem mem_flatMap_namesIn {kind : ItemKind} {user : Item}
    (h : Projection.isMiddlewareFile file = false) (h' : Projection.isLayoutFile file = false)
    (hmem : user ∈ items) (hpath : user.path = file) (hkind : user.kind = kind)
    (hfile : file ∈ files) : user.name ∈ (plainFiles files).flatMap (namesIn items kind) := by
  have hplain : file ∈ plainFiles files := by
    rw [plainFiles, List.mem_filter, h, h']
    exact ⟨hfile, rfl⟩
  exact List.mem_flatMap.mpr ⟨file, hplain, mem_namesIn.mpr ⟨user, hmem, hpath, hkind, rfl⟩⟩

theorem RecordedAs.exists_mem_importers (h : RecordedAs items file relation n)
    (hfile : file ∈ files) : ∃ names, (relation, names) ∈ importers items files ∧ n ∈ names := by
  cases h with
  | middleware h =>
    refine ⟨middlewareNames files, by simp [importers], ?_⟩
    exact List.mem_map.mpr ⟨file, List.mem_filter.mpr ⟨hfile, h⟩, rfl⟩
  | layout h h' =>
    refine ⟨layoutNames files, by simp [importers], ?_⟩
    exact List.mem_map.mpr ⟨file, List.mem_filter.mpr ⟨hfile, by rw [h, h']; rfl⟩, rfl⟩
  | screen h h' hmem hpath hkind =>
    exact ⟨_, by simp [importers], mem_flatMap_namesIn h h' hmem hpath hkind hfile⟩
  | component h h' hmem hpath hkind =>
    exact ⟨_, by simp [importers], mem_flatMap_namesIn h h' hmem hpath hkind hfile⟩
  | action h h' hmem hpath hkind =>
    exact ⟨_, by simp [importers], mem_flatMap_namesIn h h' hmem hpath hkind hfile⟩

/-- Every importer of a path is recorded on every module that the path covers. -/
theorem mem_listAt_reverse_run {usages : Table FileUsage} {usage : FileUsage} {path : String}
    {m : Placed} (husage : (file, usage) ∈ usages) (hpath : path ∈ usage.modulePaths)
    (hm : m ∈ ofKind .module items) (hcovers : covers path m.1.path = true)
    (h : RecordedAs items file relation n) :
    n ∈ listAt (Pass.reverse.run items (.ofUsages usages)).1 m.2 relation := by
  have hfile : file ∈ (ReverseIndex.ofUsages usages).modulePaths.values path :=
    ReverseIndex.mem_modulePaths_ofUsages.mpr ⟨usage, husage, hpath⟩
  obtain ⟨files, hfiles, hfile⟩ : ∃ files,
      (path, files) ∈ (ReverseIndex.ofUsages usages).modulePaths ∧ file ∈ files := by
    rw [Table.values] at hfile
    cases hlookup : (ReverseIndex.ofUsages usages).modulePaths.lookup path with
    | none =>
      rw [hlookup] at hfile
      cases hfile
    | some files =>
      rw [hlookup] at hfile
      obtain ⟨before, behind, htable, -⟩ := List.lookup_eq_some_iff.mp hlookup
      exact ⟨files, htable ▸ List.mem_append_right _ List.mem_cons_self, hfile⟩
  obtain ⟨names, hnames, hn⟩ := h.exists_mem_importers hfile
  obtain ⟨hitem, hkind⟩ := mem_ofKind.mp hm
  refine mem_listAt_run.mpr (Or.inr ⟨⟨m.2, relation, names⟩, ?_, rfl, rfl, hn⟩)
  refine List.mem_append_right _ (mem_moduleUsers.mpr ?_)
  exact ⟨m.1, path, files, hitem, hkind, hfiles, hcovers, hnames⟩

end

/-! ## Importers of a resolved path -/

/-- **Importers are recorded on what is linked, unless the other ending is taken.** For module files and
every path that a specifier resolves to: the modules that importing modules are linked to are all covered by
the path exactly if a module stands at the path, or none stands at its other ending, or none is found at all.
Then each file that imports the path is recorded on each of them. -/
theorem covers_resolved_iff_readAlike {items : List Item}
    (hform : ∀ m ∈ items, m.kind = .module → IsModuleFile m.path)
    {aliases : List String} {importer specifier path : String}
    (hpath : Import.resolve? aliases importer specifier = some path) :
    ((∀ m ∈ resolved (ofKind .module items) path, covers path m.1.path = true) ↔
      ReadAlike (ofKind .module items) path) ∧
    (ReadAlike (ofKind .module items) path →
      ∀ (usages : Table FileUsage) (file : String) (usage : FileUsage), (file, usage) ∈ usages →
        path ∈ usage.modulePaths → ∀ m ∈ resolved (ofKind .module items) path,
          ∀ relation n, RecordedAs items file relation n →
            n ∈ listAt (Pass.reverse.run items (.ofUsages usages)).1 m.2 relation) := by
  obtain ⟨stem, ending, hending, rfl⟩ := Import.exists_ending_of_resolve? hpath
  have hmodules : ∀ m ∈ ofKind .module items, IsModuleFile m.1.path := by
    intro m hm
    obtain ⟨hitem, hkind⟩ := mem_ofKind.mp hm
    exact hform m.1 (List.mem_of_getElem? hitem) hkind
  have hagree : (∀ m ∈ resolved (ofKind .module items) (stem ++ ending),
      covers (stem ++ ending) m.1.path = true) ↔ ReadAlike (ofKind .module items) (stem ++ ending) :=
    covers_resolved_iff hending hmodules
  refine ⟨hagree, fun halike usages file usage husage hmem m hm relation n hrecorded ↦ ?_⟩
  exact mem_listAt_reverse_run husage hmem (mem_of_mem_resolved hm) (hagree.mpr halike m hm) hrecorded

/-- A layout that imports a directory is recorded on each of the two modules in it. -/
theorem covers_resolved_directory :
    let items : List Item :=
      [⟨.module, "client", "apps/web/lib/auth/client.ts", none, "Web", none, none, none, none, {}⟩,
        ⟨.module, "form", "apps/web/lib/auth/form.tsx", none, "Web", none, none, none, none, {}⟩]
    let usages : Table FileUsage :=
      [("apps/web/app/layout.tsx", ⟨"", [], [], ["auth"], ["apps/web/lib/auth.ts"]⟩)]
    (∀ m ∈ items, m.kind = .module → IsModuleFile m.path) ∧
      Import.resolve? ["@/"] "apps/web/app/layout.tsx" "@/lib/auth" = some "apps/web/lib/auth.ts" ∧
      (resolved (ofKind .module items) "apps/web/lib/auth.ts").map Prod.snd = [0, 1] ∧
      (∀ m ∈ resolved (ofKind .module items) "apps/web/lib/auth.ts",
        covers "apps/web/lib/auth.ts" m.1.path = true ∧
          "Web Layout" ∈ listAt (Pass.reverse.run items (.ofUsages usages)).1 m.2 .usedInLayouts) := by
  intro items usages
  have hform : ∀ m ∈ items, m.kind = .module → IsModuleFile m.path := by
    intro m hm _
    rw [List.mem_cons, List.mem_singleton] at hm
    rcases hm with rfl | rfl
    · exact ⟨"apps/web/lib/auth", "client", ".ts", by decide, by decide, by decide, rfl⟩
    · exact ⟨"apps/web/lib/auth", "form", ".tsx", by decide, by decide, by decide, rfl⟩
  have hpath : Import.resolve? ["@/"] "apps/web/app/layout.tsx" "@/lib/auth"
      = some "apps/web/lib/auth.ts" := by decide +kernel
  obtain ⟨hagree, hrecorded⟩ := covers_resolved_iff_readAlike hform hpath
  have halike : ReadAlike (ofKind .module items) "apps/web/lib/auth.ts" :=
    Or.inr (Or.inl ⟨"apps/web/lib/auth", rfl, by decide⟩)
  have hlayout : RecordedAs items "apps/web/app/layout.tsx" .usedInLayouts "Web Layout" :=
    .layout (by decide +kernel) (by decide +kernel)
  refine ⟨hform, hpath, by decide +kernel, fun m hm ↦ ⟨hagree.mpr halike m hm, ?_⟩⟩
  exact hrecorded halike usages _ _ List.mem_cons_self List.mem_cons_self m hm _ _ hlayout

/-- **A module at the other ending misses its importers.** The specifier names no ending, and the module of
the importing file is linked to `frame`; but the path does not cover `frame`, and the screen that imports it
is not recorded there. -/
theorem frame_at_other_ending_not_covered :
    let items : List Item :=
      [⟨.screen, "Home", "apps/web/app/page.tsx", none, "Web", none, none, none, none, {}⟩,
        ⟨.module, "shell", "apps/web/lib/shell.ts", none, "Web", none, none, none, none, {}⟩,
        ⟨.module, "frame", "apps/web/lib/ui/frame.tsx", none, "Web", none, none, none, none, {}⟩]
    let usages : Table FileUsage :=
      [("apps/web/app/page.tsx", ⟨"", [], [], ["Frame"], ["apps/web/lib/ui/frame.ts"]⟩),
        ("apps/web/lib/shell.ts", ⟨"", [], [], ["Frame"], ["apps/web/lib/ui/frame.ts"]⟩)]
    let after := (runAll items (.ofUsages usages)).1
    Import.resolve? ["@/"] "apps/web/app/page.tsx" "@/lib/ui/frame"
        = some "apps/web/lib/ui/frame.ts" ∧
      (∀ m ∈ items, m.kind = .module → IsModuleFile m.path) ∧
      (¬ ∀ m ∈ resolved (ofKind .module items) "apps/web/lib/ui/frame.ts",
        covers "apps/web/lib/ui/frame.ts" m.1.path = true) ∧
      listAt after 1 .usedModules = ["frame"] ∧ listAt after 2 .usedInModules = ["shell"] ∧
      listAt after 2 .usedInScreens = [] := by
  intro items usages after
  have hform : ∀ m ∈ items, m.kind = .module → IsModuleFile m.path := by
    intro m hm hkind
    rw [List.mem_cons, List.mem_cons, List.mem_singleton] at hm
    rcases hm with rfl | rfl | rfl
    · cases hkind
    · exact ⟨"apps/web/lib", "shell", ".ts", by decide, by decide, by decide, rfl⟩
    · exact ⟨"apps/web/lib/ui", "frame", ".tsx", by decide, by decide, by decide, rfl⟩
  refine ⟨by decide +kernel, hform, ?_⟩
  -- one evaluation, so that the run of the passes is shared
  decide +kernel

end Merge

end FeatureAtlas
