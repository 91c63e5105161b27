import FeatureAtlas.Extraction.Basic
import FeatureAtlas.Proofs.Table
import Mathlib.Data.List.Induction

/-!
# What a summary holds of each module

A summary is built file by file, but what it holds of a module can be told from all that the files of the
module declare, in their order: the first among the longest descriptions, and of each name the first type and
the first utility. Adding one file extends the declarations of its own module at their end and leaves those of
the other modules alone, so each of the three tables is an invariant of the fold over the files.

Which one is first depends on the order of the files. What a permutation of the files leaves is the length of
the description and the names.
-/

namespace FeatureAtlas

/-! ## Longest texts -/

/-- A text is the first of its length among some, and none of them is longer. -/
structure FirstLongest (ds : List String) (d : String) : Prop where
  first : ds.find? (·.length == d.length) = some d
  longest : ∀ x ∈ ds, x.length ≤ d.length

namespace FirstLongest

theorem length_eq {ds ds' : List String} {d d' : String} (h : FirstLongest ds d)
    (h' : FirstLongest ds' d') (hmem : ∀ x, x ∈ ds ↔ x ∈ ds') : d.length = d'.length :=
  Nat.le_antisymm (h'.longest d ((hmem d).mp (List.mem_of_find?_eq_some h.first)))
    (h.longest d' ((hmem d').mpr (List.mem_of_find?_eq_some h'.first)))

theorem unique {ds : List String} {d d' : String} (h : FirstLongest ds d)
    (h' : FirstLongest ds d') : d = d' := by
  have hfirst := h.first
  rw [h.length_eq h' fun _ ↦ Iff.rfl, h'.first] at hfirst
  exact (Option.some.inj hfirst).symm

theorem singleton (d : String) : FirstLongest [d] d where
  first := List.find?_cons_of_pos (beq_self_eq_true d.length)
  longest _ hx := Nat.le_of_eq (congrArg String.length (List.mem_singleton.mp hx))

/-- One more text counts if it is longer. -/
theorem concat {ds : List String} {k : String} (h : FirstLongest ds k) (d : String) :
    FirstLongest (ds ++ [d]) (if k.length < d.length then d else k) := by
  split
  · next hlt =>
    have hle : ∀ x ∈ ds, x.length < d.length := fun x hx ↦ Nat.lt_of_le_of_lt (h.longest x hx) hlt
    refine ⟨?_, fun x hx ↦ ?_⟩
    · have hnone : ds.find? (·.length == d.length) = none :=
        List.find?_eq_none.mpr fun x hx heq ↦ Nat.ne_of_lt (hle x hx) (beq_iff_eq.mp heq)
      rw [List.find?_append, hnone, Option.none_or]
      exact (singleton d).first
    · rcases List.mem_append.mp hx with hx | hx
      · exact Nat.le_of_lt (hle x hx)
      · exact (singleton d).longest x hx
  · next hge =>
    refine ⟨?_, fun x hx ↦ ?_⟩
    · rw [List.find?_append, h.first, Option.some_or]
    · rcases List.mem_append.mp hx with hx | hx
      · exact h.longest x hx
      · rw [List.mem_singleton.mp hx]
        exact Nat.le_of_not_lt hge

end FirstLongest

/-! ## First entries of a name -/

/-- Out of some entries the first ones of their names, in the order in which the names come first. -/
structure FirstNamed {α : Type} (name : α → String) (all firsts : List α) : Prop where
  ordered : ListsFirst (all.map name) (firsts.map name)
  first : ∀ x ∈ firsts, all.find? (fun y ↦ name y == name x) = some x

namespace FirstNamed

variable {α : Type} {name : α → String}

theorem nil : FirstNamed name [] [] := ⟨⟨fun _ ↦ Iff.rfl, .nil⟩, fun _ hx ↦ absurd hx List.not_mem_nil⟩

/-- The names do not depend on the order of the entries. -/
theorem names_perm {all all' firsts firsts' : List α} (h : FirstNamed name all firsts)
    (h' : FirstNamed name all' firsts') (hperm : all.Perm all') :
    (firsts.map name).Perm (firsts'.map name) := by
  refine (List.perm_ext_iff_of_nodup h.ordered.nodup h'.ordered.nodup).mpr fun n ↦ ?_
  rw [h.ordered.mem_iff, h'.ordered.mem_iff]
  exact (hperm.map name).mem_iff

/-- One more entry counts if its name is new. -/
theorem concat {all known : List α} (h : FirstNamed name all known) (x : α) :
    FirstNamed name (all ++ [x])
      (if known.any (fun y ↦ name y == name x) then known else known ++ [x]) := by
  have hany : known.any (fun y ↦ name y == name x) = (known.map name).contains (name x) := by
    rw [Bool.eq_iff_iff, List.any_eq_true, List.contains_iff_mem, List.mem_map]
    simp only [beq_iff_eq]
  have hnames : (if known.any (fun y ↦ name y == name x) then known else known ++ [x]).map name
      = appendNew (known.map name) (name x) := by
    rw [hany, appendNew, apply_ite (List.map name), List.map_append, List.map_singleton]
  refine ⟨?_, fun y hy ↦ ?_⟩
  · rw [hnames, List.map_append, List.map_singleton]
    exact listsFirst_appendNew h.ordered (name x)
  · have hold : y ∈ known → (all ++ [x]).find? (fun z ↦ name z == name y) = some y := fun hy ↦ by
      rw [List.find?_append, h.first y hy, Option.some_or]
    split at hy
    · exact hold hy
    · next hnew =>
      rcases List.mem_append.mp hy with hy | hy
      · exact hold hy
      · obtain rfl := List.mem_singleton.mp hy
        -- no entry before has this name, for then it would be known
        have hnone : all.find? (fun z ↦ name z == name y) = none := by
          rw [List.find?_eq_none]
          intro z hz hzy
          rw [hany, List.contains_iff_mem, h.ordered.mem_iff] at hnew
          exact hnew (beq_iff_eq.mp hzy ▸ List.mem_map_of_mem hz)
        rw [List.find?_append, hnone, Option.none_or]
        exact List.find?_cons_of_pos (beq_self_eq_true (name y))

theorem addNamed {all known : List α} (h : FirstNamed name all known) (added : List α) :
    FirstNamed name (all ++ added) (ExtractionSummary.addNamed name known added) := by
  induction added generalizing all known with
  | nil => rwa [List.append_nil]
  | cons x added ih =>
    have hrest := ih (h.concat x)
    rwa [List.append_assoc, List.singleton_append] at hrest

end FirstNamed

namespace ExtractionSummary

/-! ## One file -/

/-- What the files of a module declare of one sort, in order. -/
def declared {α : Type} (part : Extraction → List α) (m : String) (es : List Extraction) : List α :=
  (es.filter (·.moduleName == m)).flatMap part

/-- The description that a file gives, unless it is empty. -/
def descriptionOf (e : Extraction) : List String := (nonempty? e.metadata.moduleDescription).toList

section Declared

variable {α : Type} (part : Extraction → List α) (m : String)

theorem declared_concat (es : List Extraction) (e : Extraction) :
    declared part m (es ++ [e]) = declared part m es ++ if e.moduleName = m then part e else [] := by
  rw [declared, List.filter_append, List.flatMap_append, ← declared]
  by_cases hm : e.moduleName = m
  · simp [hm]
  · simp [hm]

theorem declared_perm {es es' : List Extraction} (h : es.Perm es') :
    (declared part m es).Perm (declared part m es') := (h.filter _).flatMap_right part

end Declared

theorem ofExtractions_concat (es : List Extraction) (e : Extraction) :
    ofExtractions (es ++ [e]) = (ofExtractions es).add e := by
  rw [ofExtractions, List.foldl_append, List.foldl_cons, List.foldl_nil, ofExtractions]

theorem lookup_addDescription (moduleName : String) (description : Option String) (t : Table String)
    (m : String) : (addDescription moduleName description t).lookup m =
      match nonempty? description with
      | none => t.lookup m
      | some d => if moduleName = m then some (longer (t.lookup m) d) else t.lookup m := by
  rw [addDescription]
  cases nonempty? description with
  | none => rfl
  | some d =>
    by_cases hm : moduleName = m
    · simp [hm, Table.lookup_modify_self]
    · simp [hm, Table.lookup_modify_of_ne (Ne.symm hm)]

theorem lookup_addEntries {α : Type} (name : α → String) (moduleName : String) (added : List α)
    (t : Table (List α)) (m : String) : (addEntries name moduleName added t).lookup m =
      if moduleName = m ∧ added ≠ [] then some (addNamed name ((t.lookup m).getD []) added)
      else t.lookup m := by
  rw [addEntries]
  cases added with
  | nil => simp
  | cons x added =>
    by_cases hm : moduleName = m
    · simp [hm, Table.lookup_modify_self]
    · simp [hm, Table.lookup_modify_of_ne (Ne.symm hm)]

/-! ## All files -/

/-- What is recorded as the description of a module with given descriptions. -/
def Describes (ds : List String) : Option String → Prop
  | none => ds = []
  | some d => FirstLongest ds d

/-- What is recorded as the entries of a module with given declarations. -/
def Lists {α : Type} (name : α → String) (all : List α) : Option (List α) → Prop
  | none => all = []
  | some firsts => all ≠ [] ∧ FirstNamed name all firsts

theorem Describes.longer {ds : List String} {known : Option String} (h : Describes ds known)
    (d : String) : FirstLongest (ds ++ [d]) (ExtractionSummary.longer known d) := by
  cases known with
  | none =>
    obtain rfl : ds = [] := h
    exact FirstLongest.singleton d
  | some k => exact FirstLongest.concat h d

theorem Lists.addNamed {α : Type} {name : α → String} {all : List α} {known : Option (List α)}
    (h : Lists name all known) (added : List α) :
    FirstNamed name (all ++ added) (ExtractionSummary.addNamed name (known.getD []) added) := by
  cases known with
  | none =>
    obtain rfl : all = [] := h
    exact FirstNamed.nil.addNamed added
  | some firsts => exact h.2.addNamed added

/-- A file adds its description to those of its module. -/
theorem Describes.add {es : List Extraction} {t : Table String} {m : String}
    (h : Describes (declared descriptionOf m es) (t.lookup m)) (e : Extraction) :
    Describes (declared descriptionOf m (es ++ [e]))
      ((addDescription e.moduleName e.metadata.moduleDescription t).lookup m) := by
  rw [declared_concat, lookup_addDescription, descriptionOf]
  cases nonempty? e.metadata.moduleDescription with
  | none => simpa using h
  | some d =>
    generalize e.moduleName = n
    by_cases hm : n = m
    · simpa [hm, Describes] using h.longer d
    · simpa [hm] using h

/-- A file adds its entries to those of its module. -/
theorem Lists.add {α : Type} {name : α → String} {part : Extraction → List α}
    {es : List Extraction} {t : Table (List α)} {m : String}
    (h : Lists name (declared part m es) (t.lookup m)) (e : Extraction) :
    Lists name (declared part m (es ++ [e]))
      ((addEntries name e.moduleName (part e) t).lookup m) := by
  rw [declared_concat, lookup_addEntries]
  generalize e.moduleName = n
  by_cases hm : n = m
  · by_cases hpart : part e = []
    · simpa [hm, hpart] using h
    · rw [if_pos hm, if_pos ⟨hm, hpart⟩]
      exact ⟨fun hnil ↦ hpart (List.append_eq_nil_iff.mp hnil).2, h.addNamed (part e)⟩
  · simpa [hm] using h

theorem Describes.isSome_iff {ds : List String} {known : Option String} (h : Describes ds known) :
    known.isSome ↔ ∃ d, d ∈ ds := by
  cases known with
  | none =>
    obtain rfl : ds = [] := h
    simp
  | some d => exact iff_of_true rfl ⟨d, List.mem_of_find?_eq_some (FirstLongest.first h)⟩

theorem mem_declared_descriptionOf {m d : String} {es : List Extraction} :
    d ∈ declared descriptionOf m es ↔
      ∃ e ∈ es, e.moduleName = m ∧ e.metadata.moduleDescription = some d ∧ d ≠ "" := by
  simp only [declared, List.mem_flatMap, List.mem_filter, beq_iff_eq, descriptionOf, nonempty?,
    Option.mem_toList, Option.filter_eq_some_iff, bne_iff_ne, and_assoc]

theorem Describes.length_eq {ds ds' : List String} {known known' : Option String}
    (h : Describes ds known) (h' : Describes ds' known') (hperm : ds.Perm ds') :
    known.map String.length = known'.map String.length := by
  cases known with
  | none =>
    obtain rfl : ds = [] := h
    cases known' with
    | none => rfl
    | some d' =>
      have hmem := hperm.mem_iff.mpr (List.mem_of_find?_eq_some (FirstLongest.first h'))
      exact absurd hmem List.not_mem_nil
  | some d =>
    cases known' with
    | none =>
      obtain rfl : ds' = [] := h'
      have hmem := hperm.mem_iff.mp (List.mem_of_find?_eq_some (FirstLongest.first h))
      exact absurd hmem List.not_mem_nil
    | some d' => exact congrArg some (FirstLongest.length_eq h h' fun _ ↦ hperm.mem_iff)

theorem Lists.firstNamed {α : Type} {name : α → String} {all : List α} {known : Option (List α)}
    (h : Lists name all known) : FirstNamed name all (known.getD []) := by
  cases known with
  | none =>
    obtain rfl : all = [] := h
    exact .nil
  | some firsts => exact h.2

/-- What a summary of files holds, each module once in each table. -/
structure Aggregates (es : List Extraction) (s : ExtractionSummary) : Prop where
  items : s.items = es.flatMap Extraction.items
  keys : s.descriptions.NodupKeys ∧ s.types.NodupKeys ∧ s.utilities.NodupKeys
  descriptions : ∀ m, Describes (declared descriptionOf m es) (s.descriptions.lookup m)
  types : ∀ m, Lists ExportedType.name (declared Extraction.types m es) (s.types.lookup m)
  utilities : ∀ m, Lists Utility.name (declared Extraction.utilities m es) (s.utilities.lookup m)

theorem nodupKeys_addDescription {t : Table String} (h : t.NodupKeys) (moduleName : String)
    (description : Option String) : (addDescription moduleName description t).NodupKeys := by
  rw [addDescription]
  split
  · exact h
  · exact h.modify _ _

theorem nodupKeys_addEntries {α : Type} {t : Table (List α)} (h : t.NodupKeys) (name : α → String)
    (moduleName : String) (added : List α) : (addEntries name moduleName added t).NodupKeys := by
  rw [addEntries]
  split
  · exact h
  · exact h.modify _ _

theorem Aggregates.add {es : List Extraction} {s : ExtractionSummary} (h : Aggregates es s)
    (e : Extraction) : Aggregates (es ++ [e]) (s.add e) where
  items := by
    rw [List.flatMap_append, List.flatMap_singleton, ← h.items]
    rfl
  keys := ⟨nodupKeys_addDescription h.keys.1 _ _, nodupKeys_addEntries h.keys.2.1 _ _ _,
    nodupKeys_addEntries h.keys.2.2 _ _ _⟩
  descriptions m := (h.descriptions m).add e
  types m := (h.types m).add e
  utilities m := (h.utilities m).add e

theorem aggregates (es : List Extraction) : Aggregates es (ofExtractions es) := by
  induction es using List.reverseRecOn with
  | nil =>
    exact ⟨rfl, ⟨List.nodup_nil, List.nodup_nil, List.nodup_nil⟩, fun _ ↦ rfl, fun _ ↦ rfl,
      fun _ ↦ rfl⟩
  | append_singleton es e ih =>
    rw [ofExtractions_concat]
    exact ih.add e

/-- What two summaries of the same files have in common for a module: whether there is a description and how
long it is, and the names of the types and utilities. -/
structure AlikeAt (m : String) (s s' : ExtractionSummary) : Prop where
  description : (s.descriptions.lookup m).map String.length
    = (s'.descriptions.lookup m).map String.length
  types : ((s.types.values m).map ExportedType.name).Perm
    ((s'.types.values m).map ExportedType.name)
  utilities : ((s.utilities.values m).map Utility.name).Perm
    ((s'.utilities.values m).map Utility.name)

/-- **A summary in terms of the files.** The items stand in the order of the files. A module has a description
exactly if one of its files gives one, and it is the first among the longest; of the types and utilities of
its files it has the first of each name. The order of the files matters no further. -/
theorem ofExtractions_aggregates (es : List Extraction) :
    Aggregates es (ofExtractions es) ∧
      (∀ m, ((ofExtractions es).descriptions.lookup m).isSome ↔ ∃ d, ∃ e ∈ es, e.moduleName = m ∧
        e.metadata.moduleDescription = some d ∧ d ≠ "") ∧
      ∀ es', es'.Perm es → ∀ m, AlikeAt m (ofExtractions es') (ofExtractions es) := by
  have h := aggregates es
  refine ⟨h, fun m ↦ ?_, fun es' hperm m ↦ ?_⟩
  · rw [(h.descriptions m).isSome_iff]
    simp only [mem_declared_descriptionOf]
  · have h' := aggregates es'
    exact ⟨(h'.descriptions m).length_eq (h.descriptions m) (declared_perm _ m hperm),
      (h'.types m).firstNamed.names_perm (h.types m).firstNamed (declared_perm _ m hperm),
      (h'.utilities m).firstNamed.names_perm (h.utilities m).firstNamed (declared_perm _ m hperm)⟩

/-- Two files of one module with descriptions of one length and a type of one name: the first file counts in
either order. -/
theorem ofExtractions_aggregates_tie :
    let signIn : Extraction :=
      { path := "src/lib/auth/a.ts", metadata := { moduleDescription := some "Signs in" }
        types := [{ name := "User", kind := .interface }] }
    let signUp : Extraction :=
      { path := "src/lib/auth/b.ts", metadata := { moduleDescription := some "Signs up" }
        types := [{ name := "Role", kind := .enumeration }, { name := "User", kind := .typeAlias }] }
    [signUp, signIn].Perm [signIn, signUp] ∧
      (ofExtractions [signIn, signUp]).descriptions = [("auth", "Signs in")] ∧
      (ofExtractions [signIn, signUp]).types =
        [("auth", [{ name := "User", kind := .interface }, { name := "Role", kind := .enumeration }])] ∧
      (ofExtractions [signUp, signIn]).descriptions = [("auth", "Signs up")] ∧
      AlikeAt "auth" (ofExtractions [signUp, signIn]) (ofExtractions [signIn, signUp]) := by
  intro signIn signUp
  have hperm : [signUp, signIn].Perm [signIn, signUp] := .swap _ _ _
  refine ⟨hperm, by decide +kernel, by decide +kernel, by decide +kernel, ?_⟩
  exact (ofExtractions_aggregates [signIn, signUp]).2.2 _ hperm "auth"

end ExtractionSummary

end FeatureAtlas
