import FeatureAtlas.Proofs.Extraction.Links
import FeatureAtlas.Proofs.Merge.Order
import Mathlib.Data.List.Forall2

/-!
# Growth of relationship lists

On ordered sets an addition only appends, so each list that it leaves behind starts with the list that it
found, and the length it counts is the length it appended. `Item.Grown` says this of one item together with
what merging leaves alone. It is kept by every addition, composes along a run of additions, and so relates
the items before and after any pass, place by place.
-/

namespace FeatureAtlas

/-- An item after merging: declared as before, every list continued without repetitions. -/
structure Item.Grown (old new : Item) : Prop where
  declared : new.declared = old.declared
  continued : ∀ r, old.links.get r <+: new.links.get r
  nodup : new.links.Nodup

theorem Item.Grown.refl {item : Item} (h : item.links.Nodup) : Item.Grown item item :=
  ⟨rfl, fun _ ↦ List.prefix_refl _, h⟩

theorem Item.Grown.trans {a b c : Item} (hab : Item.Grown a b) (hbc : Item.Grown b c) :
    Item.Grown a c :=
  ⟨hbc.declared.trans hab.declared, fun r ↦ (hab.continued r).trans (hbc.continued r), hbc.nodup⟩

namespace Merge

/-! ## One addition -/

theorem grown_joined {a : Addition} (ha : a.relation ≠ .dbTables) {item : Item}
    (h : item.links.Nodup) : Item.Grown item (joined a item) where
  declared := declared_joined ha item
  continued r := by
    by_cases hr : r = a.relation
    · rw [hr, joined, get_join_self]
      exact prefix_union (h a.relation) a.names
    · simp only [joined, get_join_of_ne hr, List.prefix_refl]
  nodup r := by
    by_cases hr : r = a.relation
    · rw [hr, joined, get_join_self]
      exact nodup_union _ _
    · rw [joined, get_join_of_ne hr]
      exact h r

/-- Items after merging, place by place. -/
abbrev Grown (old new : List Item) : Prop := List.Forall₂ Item.Grown old new

theorem grown_refl {items : List Item} (h : ∀ item ∈ items, item.links.Nodup) :
    Grown items items :=
  List.forall₂_same.mpr fun item hitem ↦ .refl (h item hitem)

theorem Grown.nodup {old new : List Item} (h : Grown old new) :
    ∀ item ∈ new, item.links.Nodup := by
  induction h with
  | nil => simp
  | cons hitem _ ih => exact List.forall_mem_cons.mpr ⟨hitem.nodup, ih⟩

theorem Grown.trans {a b c : List Item} (hab : Grown a b) (hbc : Grown b c) : Grown a c := by
  induction hab generalizing c with
  | nil => exact hbc
  | cons hitem _ ih =>
    obtain ⟨_, _, hnext, hrest, rfl⟩ := List.forall₂_cons_left_iff.mp hbc
    exact .cons (hitem.trans hnext) (ih hrest)

theorem grown_applyOne {items : List Item} (h : ∀ item ∈ items, item.links.Nodup) {a : Addition}
    (ha : a.relation ≠ .dbTables) : Grown items (applyOne items a) := by
  rw [applyOne_eq_modify]
  generalize a.place = place
  induction items generalizing place with
  | nil =>
    rw [List.modify_nil]
    exact .nil
  | cons item items ih =>
    obtain ⟨hitem, hrest⟩ := List.forall_mem_cons.mp h
    cases place with
    | zero =>
      rw [List.modify_zero_cons]
      exact .cons (grown_joined ha hitem) (grown_refl hrest)
    | succ place =>
      rw [List.modify_succ_cons]
      exact .cons (.refl hitem) (ih hrest place)

theorem size_join (r : Relation) (names : List String) (l : Links) :
    ((join r names l).size : Int) = l.size + growth r names l := Links.size_set _ _ _

/-- An addition counts what it appends. -/
theorem linkCount_applyOne (items : List Item) (a : Addition) :
    (Item.linkCount (applyOne items a) : Int) = Item.linkCount items + growthOf items a := by
  rw [applyOne_eq_modify, growthOf]
  generalize a.place = place
  induction items generalizing place with
  | nil => simp [Item.linkCount]
  | cons item items ih =>
    cases place with
    | zero =>
      have hjoin := size_join a.relation a.names item.links
      simp only [Item.linkCount, List.modify_zero_cons, List.map_cons, List.sum_cons, joined,
        List.getElem?_cons_zero]
      omega
    | succ place =>
      have hrest := ih place
      simp only [Item.linkCount] at hrest
      simp only [Item.linkCount, List.modify_succ_cons, List.map_cons, List.sum_cons,
        List.getElem?_cons_succ]
      omega

/-! ## Runs of additions -/

theorem grown_applyAll {additions : List Addition} (ha : ∀ a ∈ additions, a.relation ≠ .dbTables)
    {items : List Item} (h : ∀ item ∈ items, item.links.Nodup) :
    Grown items (applyAll items additions).1 := by
  rw [applyAll_fst]
  induction additions generalizing items with
  | nil => exact grown_refl h
  | cons a additions ih =>
    obtain ⟨hfirst, hrest⟩ := List.forall_mem_cons.mp ha
    have hstep := grown_applyOne h hfirst
    exact hstep.trans (ih hrest hstep.nodup)

theorem linkCount_applyAll (items : List Item) (additions : List Addition) :
    (Item.linkCount (applyAll items additions).1 : Int)
      = Item.linkCount items + (applyAll items additions).2 := by
  induction additions generalizing items with
  | nil => simp [applyAll]
  | cons a additions ih => rw [applyAll_cons, ih, linkCount_applyOne, Int.add_assoc]

end Merge

namespace Pass

open Merge

theorem grown_run (pass : Pass) {items : List Item} (h : ∀ item ∈ items, item.links.Nodup)
    (analysis : Analysis) : Grown items (pass.run items analysis).1 :=
  grown_applyAll (fun _ ha ↦ relation_ne_dbTables ha) h

theorem run_snd (pass : Pass) (items : List Item) (analysis : Analysis) :
    (pass.run items analysis).2
      = (Item.linkCount (pass.run items analysis).1 : Int) - Item.linkCount items := by
  have hcount := linkCount_applyAll items (pass.additions items analysis)
  rw [run]
  omega

end Pass

namespace Merge

/-! ## Sequences of passes -/

theorem grown_runPasses (s : List Pass) {items : List Item}
    (h : ∀ item ∈ items, item.links.Nodup) (analysis : Analysis) :
    Grown items (runPasses s items analysis) := by
  induction s generalizing items with
  | nil => exact grown_refl h
  | cons p s ih =>
    have hstep := p.grown_run h analysis
    exact hstep.trans (ih hstep.nodup)

/-- **Relationship lists are ordered sets over whole runs.** What extraction declares repeats nothing.
From such items on, every pass of a sequence leaves the declarations, the number and the order of the items
as they were, continues each list without repetitions, and counts exactly what the lists have gained; so
does a full run. -/
theorem passes_grow_ordered_sets {items : List Item} (h : ∀ item ∈ items, item.links.Nodup)
    (analysis : Analysis) :
    (∀ (s : List Pass) (p : Pass),
      Grown (runPasses s items analysis) (p.run (runPasses s items analysis) analysis).1 ∧
      (p.run (runPasses s items analysis) analysis).2
        = (Item.linkCount (p.run (runPasses s items analysis) analysis).1 : Int)
          - Item.linkCount (runPasses s items analysis)) ∧
    (runAll items analysis).2.total
      = (Item.linkCount (runAll items analysis).1 : Int) - Item.linkCount items ∧
    ∀ source path, ∀ item ∈ (Extraction.ofSource source path).items, item.links.Nodup := by
  refine ⟨fun s p ↦ ⟨?_, ?_⟩, ?_, fun source path item ↦ Extraction.nodup_links_of_mem_items⟩
  · exact p.grown_run (grown_runPasses s h analysis).nodup analysis
  · exact p.run_snd (runPasses s items analysis) analysis
  · simp only [runAll, MergeStats.total, Pass.run_snd]
    omega

/-- A screen that declares one component and whose file uses that one and another: after the reverse pass,
the forward pass appends the new name and counts one. -/
theorem passes_grow_ordered_sets_screen :
    let items : List Item :=
      [⟨.screen, "Home", "app/home.tsx", none, "web", none, none, none, none,
          { usedComponents := ["Card"] }⟩,
        ⟨.component, "List", "app/list.tsx", none, "web", none, none, none, none, {}⟩]
    let analysis : Analysis :=
      .ofUsages [("app/home.tsx", ⟨"app/home.tsx", ["List", "Card"], [], [], []⟩)]
    (∀ item ∈ items, item.links.Nodup) ∧
      Grown (runPasses [.reverse] items analysis)
        (Pass.forward.run (runPasses [.reverse] items analysis) analysis).1 ∧
      (Pass.forward.run (runPasses [.reverse] items analysis) analysis).2 = 1 ∧
      listAt (Pass.forward.run (runPasses [.reverse] items analysis) analysis).1 0 .usedComponents
        = ["Card", "List"] := by
  intro items analysis
  have hitems : ∀ item ∈ items, item.links.Nodup := by decide
  have hpass := (passes_grow_ordered_sets hitems analysis).1 [.reverse] .forward
  exact ⟨hitems, hpass.1, hpass.2.trans (by decide), by decide⟩

end Merge

end FeatureAtlas
