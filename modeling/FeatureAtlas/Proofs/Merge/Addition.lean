import FeatureAtlas.Merge.Addition
import FeatureAtlas.Proofs.Distinct

/-!
# The effect of additions

An addition touches one relationship list of one item and is idempotent there, so a run of additions is
governed by two facts. Additions to different lists commute. And an addition is *absorbed* by items that
hold its names in a list without repetitions: applying it to such items changes nothing and counts
nothing, and no later addition can undo it. A list of additions is therefore absorbed by its own result,
however often it meets the same list of the same item.
-/

namespace FeatureAtlas

/-- Links are their lists. -/
theorem Links.ext_get {l m : Links} (h : ∀ r, l.get r = m.get r) : l = m := by
  cases l
  cases m
  rw [Links.mk.injEq]
  exact ⟨h .usedComponents, h .usedActions, h .usedInScreens, h .usedInComponents,
    h .usedInActions, h .usedInMiddleware, h .usedInLayouts, h .usedModules, h .usedInModules,
    h .dbTables⟩

/-- An item without the lists that merging writes; its declared tables stay. -/
def Item.declared (item : Item) : Item :=
  { item with links := { dbTables := item.links.dbTables } }

namespace Merge

/-! ## Joining names to links -/

@[simp] theorem get_join_self (r : Relation) (names : List String) (l : Links) :
    (join r names l).get r = union (l.get r) names := Links.get_set_self _ _ _

theorem get_join_of_ne {r q : Relation} (h : q ≠ r) (names : List String) (l : Links) :
    (join r names l).get q = l.get q := Links.get_set_of_ne _ h _

theorem mem_get_join {r q : Relation} {names : List String} {l : Links} {n : String} :
    n ∈ (join r names l).get q ↔ n ∈ l.get q ∨ (r = q ∧ n ∈ names) := by
  by_cases h : q = r
  · subst h
    rw [get_join_self, mem_union]
    simp
  · rw [get_join_of_ne h]
    simp [Ne.symm h]

theorem join_comm {r q : Relation} (h : r ≠ q) (names names' : List String) (l : Links) :
    join q names' (join r names l) = join r names (join q names' l) := by
  refine Links.ext_get fun s ↦ ?_
  by_cases hr : s = r
  · subst hr
    rw [get_join_of_ne h, get_join_self, get_join_self, get_join_of_ne h]
  · by_cases hq : s = q
    · subst hq
      rw [get_join_self, get_join_of_ne hr, get_join_of_ne hr, get_join_self]
    · rw [get_join_of_ne hq, get_join_of_ne hr, get_join_of_ne hr, get_join_of_ne hq]

theorem join_of_subset {r : Relation} {names : List String} {l : Links} (hn : (l.get r).Nodup)
    (hs : names ⊆ l.get r) : join r names l = l := by
  refine Links.ext_get fun s ↦ ?_
  by_cases h : s = r
  · subst h
    rw [get_join_self, union_of_subset hn hs]
  · rw [get_join_of_ne h]

/-! ## One addition -/

/-- The item that an addition makes of an item. -/
def joined (a : Addition) (item : Item) : Item :=
  { item with links := join a.relation a.names item.links }

theorem applyOne_eq_modify (items : List Item) (a : Addition) :
    applyOne items a = items.modify a.place (joined a) := rfl

theorem getElem?_applyOne_self (items : List Item) (a : Addition) :
    (applyOne items a)[a.place]? = (items[a.place]?).map (joined a) :=
  List.getElem?_modify_eq _ _ _

theorem getElem?_applyOne_of_ne (items : List Item) {a : Addition} {place : Nat}
    (h : place ≠ a.place) : (applyOne items a)[place]? = items[place]? :=
  List.getElem?_modify_ne _ _ h.symm

theorem length_applyOne (items : List Item) (a : Addition) :
    (applyOne items a).length = items.length := List.length_modify _ _ _

/-- A list of the item at a place; where there is no item, the list is empty. -/
def listAt (items : List Item) (place : Nat) (relation : Relation) : List String :=
  ((items[place]?).map fun item ↦ item.links.get relation).getD []

theorem listAt_of_getElem? {items : List Item} {place : Nat} {item : Item}
    (h : items[place]? = some item) (relation : Relation) :
    listAt items place relation = item.links.get relation := by
  rw [listAt, h, Option.map_some, Option.getD_some]

theorem mem_listAt_applyOne {items : List Item} {a : Addition} (h : a.place < items.length)
    {place : Nat} {relation : Relation} {n : String} :
    n ∈ listAt (applyOne items a) place relation ↔
      n ∈ listAt items place relation ∨
        (a.place = place ∧ a.relation = relation ∧ n ∈ a.names) := by
  by_cases hp : place = a.place
  · subst hp
    have hitem : items[a.place]? = some items[a.place] := List.getElem?_eq_getElem h
    have hjoined : (applyOne items a)[a.place]? = some (joined a items[a.place]) := by
      rw [getElem?_applyOne_self, hitem, Option.map_some]
    rw [listAt_of_getElem? hitem, listAt_of_getElem? hjoined, joined, mem_get_join]
    simp
  · rw [listAt, getElem?_applyOne_of_ne items hp, listAt]
    simp [Ne.symm hp]

/-- Two additions are apart unless they write the same list of the same item. -/
def Apart (a b : Addition) : Prop := a.place = b.place → a.relation ≠ b.relation

theorem applyOne_comm {a b : Addition} (h : Apart a b) (items : List Item) :
    applyOne (applyOne items a) b = applyOne (applyOne items b) a := by
  rw [applyOne_eq_modify, applyOne_eq_modify, applyOne_eq_modify, applyOne_eq_modify]
  by_cases hp : a.place = b.place
  · have hjoin : joined b ∘ joined a = joined a ∘ joined b := by
      funext item
      simp only [Function.comp_apply, joined, join_comm (h hp)]
    rw [hp, List.modify_modify_eq, List.modify_modify_eq, hjoin]
  · exact List.modify_modify_ne _ _ _ hp

theorem declared_joined {a : Addition} (h : a.relation ≠ .dbTables) (item : Item) :
    (joined a item).declared = item.declared := by
  have ht : (join a.relation a.names item.links).dbTables = item.links.dbTables :=
    get_join_of_ne h.symm a.names item.links
  simp only [Item.declared, joined, ht]

/-- Additions to other lists than the declared tables keep every declaration. -/
theorem map_declared_applyOne {a : Addition} (h : a.relation ≠ .dbTables) (items : List Item) :
    (applyOne items a).map Item.declared = items.map Item.declared := by
  refine List.ext_getElem? fun place ↦ ?_
  rw [List.getElem?_map, List.getElem?_map]
  by_cases hp : place = a.place
  · subst hp
    rw [getElem?_applyOne_self, Option.map_map]
    exact congrFun (congrArg Option.map (funext (declared_joined h))) _
  · rw [getElem?_applyOne_of_ne items hp]

/-! ## Absorbed additions -/

/-- The names of an addition stand already in the list that it writes, which repeats nothing. -/
def Absorbed (items : List Item) (a : Addition) : Prop :=
  ∀ item, items[a.place]? = some item →
    (item.links.get a.relation).Nodup ∧ a.names ⊆ item.links.get a.relation

theorem Absorbed.applyOne_eq {items : List Item} {a : Addition} (h : Absorbed items a) :
    applyOne items a = items := by
  refine List.ext_getElem? fun place ↦ ?_
  by_cases hp : place = a.place
  · subst hp
    rw [getElem?_applyOne_self]
    cases hi : items[a.place]? with
    | none => rfl
    | some item =>
      obtain ⟨hn, hs⟩ := h item hi
      rw [Option.map_some, joined, join_of_subset hn hs]
  · exact getElem?_applyOne_of_ne items hp

theorem Absorbed.growthOf_eq {items : List Item} {a : Addition} (h : Absorbed items a) :
    growthOf items a = 0 := by
  rw [growthOf]
  cases hi : items[a.place]? with
  | none => rfl
  | some item =>
    obtain ⟨hn, hs⟩ := h item hi
    simp only [growth, union_of_subset hn hs, Int.sub_self]

theorem absorbed_applyOne_self (items : List Item) (a : Addition) :
    Absorbed (applyOne items a) a := by
  intro item hitem
  rw [getElem?_applyOne_self, Option.map_eq_some_iff] at hitem
  obtain ⟨old, -, rfl⟩ := hitem
  rw [joined, get_join_self]
  exact ⟨nodup_union _ _, fun n hn ↦ mem_union.mpr (Or.inr hn)⟩

/-- What is absorbed stays absorbed: unions lose nothing and repeat nothing. -/
theorem Absorbed.step {items : List Item} {a : Addition} (h : Absorbed items a)
    (b : Addition) : Absorbed (applyOne items b) a := by
  intro item hitem
  by_cases hp : a.place = b.place
  · rw [hp, getElem?_applyOne_self, Option.map_eq_some_iff] at hitem
    obtain ⟨old, hold, rfl⟩ := hitem
    obtain ⟨hn, hs⟩ := h old (hp ▸ hold)
    refine ⟨?_, fun n hn ↦ mem_get_join.mpr (Or.inl (hs hn))⟩
    rw [joined]
    by_cases hr : a.relation = b.relation
    · rw [hr, get_join_self]
      exact nodup_union _ _
    · rwa [get_join_of_ne hr]
  · rw [getElem?_applyOne_of_ne items hp] at hitem
    exact h item hitem

/-! ## Runs of additions -/

private theorem foldl_counting (additions : List Addition) :
    ∀ (items : List Item) (n : Int),
      additions.foldl (fun (items, n) a ↦ (applyOne items a, n + growthOf items a)) (items, n)
        = (additions.foldl applyOne items, n + (applyAll items additions).2) := by
  induction additions with
  | nil => intro items n; simp [applyAll]
  | cons a additions ih =>
    intro items n
    have hcount : (applyAll items (a :: additions)).2
        = growthOf items a + (applyAll (applyOne items a) additions).2 := by
      rw [applyAll, List.foldl_cons, ih, Int.zero_add]
    rw [List.foldl_cons, ih, hcount, List.foldl_cons, Int.add_assoc]

theorem applyAll_fst (items : List Item) (additions : List Addition) :
    (applyAll items additions).1 = additions.foldl applyOne items := by
  rw [applyAll, foldl_counting]

theorem applyAll_cons (items : List Item) (a : Addition) (additions : List Addition) :
    applyAll items (a :: additions)
      = ((applyAll (applyOne items a) additions).1,
          growthOf items a + (applyAll (applyOne items a) additions).2) := by
  rw [applyAll, List.foldl_cons, foldl_counting, applyAll_fst, Int.zero_add]

theorem applyAll_of_absorbed {items : List Item} {additions : List Addition}
    (h : ∀ a ∈ additions, Absorbed items a) : applyAll items additions = (items, 0) := by
  induction additions with
  | nil => rfl
  | cons a additions ih =>
    have ha := h a List.mem_cons_self
    rw [applyAll_cons, ha.applyOne_eq, ha.growthOf_eq, ih fun b hb ↦ h b (List.mem_cons_of_mem a hb)]
    rfl

theorem Absorbed.run {a : Addition} (additions : List Addition) :
    ∀ {items : List Item}, Absorbed items a → Absorbed (additions.foldl applyOne items) a := by
  induction additions with
  | nil => intro items h; exact h
  | cons b additions ih => intro items h; exact ih (h.step b)

/-- A run absorbs each of its additions. -/
theorem absorbed_foldl_applyOne {a : Addition} {additions : List Addition} (h : a ∈ additions) :
    ∀ items : List Item, Absorbed (additions.foldl applyOne items) a := by
  induction additions with
  | nil => exact absurd h (by simp)
  | cons b additions ih =>
    intro items
    rcases List.mem_cons.mp h with rfl | h'
    · exact (absorbed_applyOne_self items a).run additions
    · exact ih h' (applyOne items b)

/-- **Idempotence.** A second run of the same additions changes nothing and counts nothing. -/
theorem applyAll_applyAll (items : List Item) (additions : List Addition) :
    applyAll (applyAll items additions).1 additions = ((applyAll items additions).1, 0) := by
  refine applyAll_of_absorbed fun a ha ↦ ?_
  rw [applyAll_fst]
  exact absorbed_foldl_applyOne ha items

/-- **Commutation.** Two runs that never write the same list may change places. -/
theorem foldl_applyOne_comm {as bs : List Addition} (h : ∀ a ∈ as, ∀ b ∈ bs, Apart a b) :
    ∀ items : List Item,
      bs.foldl applyOne (as.foldl applyOne items) = as.foldl applyOne (bs.foldl applyOne items) := by
  -- one addition moves past a whole run, then the runs are exchanged addition by addition
  have hone : ∀ a : Addition, (∀ b ∈ bs, Apart a b) → ∀ items : List Item,
      bs.foldl applyOne (applyOne items a) = applyOne (bs.foldl applyOne items) a := by
    intro a
    clear h
    induction bs with
    | nil => intro _ items; rfl
    | cons b bs ih =>
      intro ha items
      rw [List.foldl_cons, applyOne_comm (ha b List.mem_cons_self),
        ih fun c hc ↦ ha c (List.mem_cons_of_mem b hc)]
      rfl
  induction as with
  | nil => intro items; rfl
  | cons a as ih =>
    intro items
    rw [List.foldl_cons, ih fun c hc ↦ h c (List.mem_cons_of_mem a hc),
      hone a (h a List.mem_cons_self)]
    rfl

/-- A list after a run holds what it held and what the run's additions bring it. -/
theorem mem_listAt_foldl_applyOne {additions : List Addition} {place : Nat} {relation : Relation}
    {n : String} :
    ∀ {items : List Item}, (∀ a ∈ additions, a.place < items.length) →
      (n ∈ listAt (additions.foldl applyOne items) place relation ↔
        n ∈ listAt items place relation ∨
          ∃ a ∈ additions, a.place = place ∧ a.relation = relation ∧ n ∈ a.names) := by
  induction additions with
  | nil => intro items _; simp
  | cons a additions ih =>
    intro items h
    have hrest : ∀ b ∈ additions, b.place < (applyOne items a).length := by
      intro b hb
      rw [length_applyOne]
      exact h b (List.mem_cons_of_mem a hb)
    rw [List.foldl_cons, ih hrest, mem_listAt_applyOne (h a List.mem_cons_self), or_assoc]
    simp only [List.mem_cons, exists_eq_or_imp]

theorem map_declared_foldl_applyOne {additions : List Addition}
    (h : ∀ a ∈ additions, a.relation ≠ .dbTables) :
    ∀ items : List Item,
      (additions.foldl applyOne items).map Item.declared = items.map Item.declared := by
  induction additions with
  | nil => intro items; rfl
  | cons a additions ih =>
    intro items
    rw [List.foldl_cons, ih fun b hb ↦ h b (List.mem_cons_of_mem a hb),
      map_declared_applyOne (h a List.mem_cons_self)]

end Merge

end FeatureAtlas
