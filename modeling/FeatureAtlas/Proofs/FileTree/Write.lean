import FeatureAtlas.FileTree.Write
import FeatureAtlas.Proofs.FileTree.Same

/-!
# Writing to trees with the same content

A change of one directory keeps two trees the same, because it is described by what each name leads to
afterwards. So whatever is written to two trees that hold the same is refused by both for the same reason,
or leaves both holding the same.
-/

namespace FeatureAtlas.FileNode

/-! ## Changing a directory -/

theorem Alike.map {u v : Option FileNode} {f : FileNode → FileNode} (h : Alike u v)
    (hf : ∀ x y, x.Same y → (f x).Same (f y)) : Alike (u.map f) (v.map f) := by
  cases u with
  | none =>
    cases h
    exact .none
  | some x =>
    cases v with
    | none => cases h
    | some y => exact alike_some_iff.mpr (hf x y (alike_some_iff.mp h))

theorem lookup_map_entries (entries : List (String × FileNode)) (n k : String)
    (f : FileNode → FileNode) :
    (entries.map fun e ↦ if e.1 == n then (e.1, f e.2) else (e.1, e.2)).lookup k
      = (entries.lookup k).map fun child ↦ if k == n then f child else child := by
  induction entries with
  | nil => rfl
  | cons entry rest ih =>
    obtain ⟨name, child⟩ := entry
    have hentry : (if name == n then (name, f child) else (name, child))
        = (name, if name == n then f child else child) := by
      split <;> rfl
    rw [List.map_cons, hentry, List.lookup_cons, List.lookup_cons, ih]
    by_cases hk : k = name
    · rw [hk, beq_self_eq_true]
      rfl
    · rw [beq_eq_false_iff_ne.mpr hk]

theorem Same.modifyDirectory {t t' : FileNode} (h : t.Same t') (place : List String)
    {f : Table FileNode → Table FileNode}
    (hf : ∀ entries entries', (directory entries).Same (directory entries') →
      (directory (f entries)).Same (directory (f entries'))) :
    (t.modifyDirectory f place).Same (t'.modifyDirectory f place) := by
  induction place generalizing t t' with
  | nil =>
    cases alike_some_iff.mpr h with
    | file | link => exact h
    | directory hsame => exact hf _ _ hsame
  | cons n rest ih =>
    cases alike_some_iff.mpr h with
    | file | link => exact h
    | directory hsame =>
      refine same_directory_iff.mpr fun k ↦ ?_
      rw [lookup_map_entries, lookup_map_entries]
      refine (hsame.alike_lookup k).map fun x y hxy ↦ ?_
      split
      · exact ih hxy
      · exact hxy

theorem Same.put {t t' : FileNode} (h : t.Same t') (place : List String) (name : String)
    (node : FileNode) : (t.put place name node).Same (t'.put place name node) := by
  refine h.modifyDirectory place fun entries entries' hsame ↦ same_directory_iff.mpr fun n ↦ ?_
  rw [Table.lookup_set, Table.lookup_set]
  split
  · exact alike_some_iff.mpr (Same.refl node)
  · exact hsame.alike_lookup n

theorem lookup_filter_ne (entries : List (String × FileNode)) (name n : String) :
    (entries.filter (·.1 != name)).lookup n = if n = name then none else entries.lookup n := by
  induction entries with
  | nil => simp
  | cons entry rest ih =>
    obtain ⟨k, node⟩ := entry
    by_cases hk : k = name
    · subst hk
      rw [List.filter_cons_of_neg (by simp), ih, List.lookup_cons]
      split
      · rfl
      · next hn => rw [beq_eq_false_iff_ne.mpr hn]
    · rw [List.filter_cons_of_pos (by simpa using hk), List.lookup_cons, List.lookup_cons, ih]
      by_cases hn : n = k
      · subst hn
        simp [hk]
      · rw [beq_eq_false_iff_ne.mpr hn]

theorem Same.remove {t t' : FileNode} (h : t.Same t') (place : List String) (name : String) :
    (t.remove place name).Same (t'.remove place name) := by
  refine h.modifyDirectory place fun entries entries' hsame ↦ same_directory_iff.mpr fun n ↦ ?_
  rw [lookup_filter_ne, lookup_filter_ne]
  split
  · exact .none
  · exact hsame.alike_lookup n

/-! ## Canonical places -/

/-- Results that are both the same error or same trees. -/
inductive SameResult {ε : Type} : Except ε FileNode → Except ε FileNode → Prop
  | error (e : ε) : SameResult (.error e) (.error e)
  | ok {t t' : FileNode} (h : t.Same t') : SameResult (.ok t) (.ok t')

theorem SameResult.error_or_ok {ε : Type} {a a' : Except ε FileNode} (h : SameResult a a') :
    (∃ e, a = .error e ∧ a' = .error e) ∨ ∃ t t', a = .ok t ∧ a' = .ok t' ∧ t.Same t' := by
  cases h with
  | error e => exact Or.inl ⟨e, rfl, rfl⟩
  | ok h => exact Or.inr ⟨_, _, rfl, rfl, h⟩

section

variable {t t' : FileNode}

theorem Same.status (h : t.Same t') (here : List String) (name : String) :
    SameResult (t.status here name) (t'.status here name) := by
  have halike := h.alike here
  rw [FileNode.status, FileNode.status]
  generalize t.node? here = u, t'.node? here = v at halike ⊢
  cases halike with
  | none | file | link => exact .error _
  | @directory entries entries' hsame =>
    dsimp only
    split
    · exact .error _
    · have hentry := hsame.alike_lookup name
      generalize entries.lookup name = e, entries'.lookup name = e' at hentry ⊢
      cases hentry with
      | none => exact .error _
      | file | link => exact .ok (Same.refl _)
      | directory hbelow => exact .ok hbelow

theorem Same.canonicalWalk_eq (h : t.Same t') (strict : Bool) (here names : List String) :
    t.canonicalWalk strict here names = t'.canonicalWalk strict here names := by
  induction names generalizing here with
  | nil => rfl
  | cons n rest ih =>
    have hstatus := h.status here n
    rw [canonicalWalk, canonicalWalk, ih here.dropLast, ih (here ++ [n])]
    generalize t.status here n = u, t'.status here n = v at hstatus ⊢
    cases hstatus with
    | error fault => rfl
    | ok hnode => cases alike_some_iff.mpr hnode <;> rfl

theorem Same.canonicalFrom_eq (h : t.Same t') (strict : Bool) (links : Nat)
    (frames : List (List String × List String)) (here names : List String) :
    t.canonicalFrom strict links frames here names
      = t'.canonicalFrom strict links frames here names := by
  fun_induction canonicalFrom t strict links frames here names with
  | case1 links frames here names e hwalk =>
    rw [canonicalFrom.eq_def t', ← h.canonicalWalk_eq, hwalk]
  | case2 links here names place hwalk =>
    rw [canonicalFrom.eq_def t', ← h.canonicalWalk_eq, hwalk]
  | case3 links here names place hwalk link rest outer ih =>
    rw [canonicalFrom.eq_def t', ← h.canonicalWalk_eq, hwalk]
    exact ih
  | case4 links frames here names place target rest hwalk hmet =>
    rw [canonicalFrom.eq_def t', ← h.canonicalWalk_eq, hwalk]
    simp only [if_pos hmet]
  | case5 frames here names place target rest hwalk hmet =>
    rw [canonicalFrom.eq_def t', ← h.canonicalWalk_eq, hwalk]
  | case6 frames here names place target rest hwalk hmet links ih =>
    rw [canonicalFrom.eq_def t', ← h.canonicalWalk_eq, hwalk]
    simp only [if_neg hmet, ih]

theorem Same.canonicalStrict_eq (h : t.Same t') : t.canonicalStrict = t'.canonicalStrict := by
  funext cwd p
  exact h.canonicalFrom_eq _ _ _ _ _

theorem Same.isDirectoryAt_eq (h : t.Same t') : t.isDirectoryAt = t'.isDirectoryAt := by
  funext place
  have halike := h.alike place
  rw [isDirectoryAt, isDirectoryAt]
  generalize t.node? place = u, t'.node? place = v at halike ⊢
  cases halike <;> rfl

/-! ## Files -/

theorem Same.createFile (h : t.Same t') (parent : List String) (name : String) :
    SameResult (t.createFile parent name) (t'.createFile parent name) := by
  rw [FileNode.createFile, FileNode.createFile]
  split
  · exact .error _
  · exact .ok (h.put parent name _)

theorem Same.replace (h : t.Same t') (parent : List String) (name : String)
    (content : List UInt8) (cwd : List String) (target : Path) :
    SameResult (t.replace parent name content cwd target)
      (t'.replace parent name content cwd target) := by
  rw [FileNode.replace, FileNode.replace, h.locate_eq, h.isDirectoryAt_eq]
  cases t'.locate cwd target.parent with
  | error fault => exact .error _
  | ok place =>
    dsimp only
    repeat' split
    · exact .error _
    · exact .error _
    · exact .error _
    · exact .error _
    · exact .ok ((h.remove parent name).put place target.name _)

theorem SameResult.attempt {a a' : Except FileError FileNode} (h : SameResult a a')
    (refuse : WriteStep → Option FileFault) (step : WriteStep) (path : Path) :
    SameResult (FileNode.attempt refuse step path a) (FileNode.attempt refuse step path a') := by
  rw [FileNode.attempt, FileNode.attempt]
  split
  · exact .error _
  · exact h

/-- What is written to same trees is refused by both alike or leaves both the same. -/
theorem Same.writeUnder (h : t.Same t') (refuse : WriteStep → Option FileFault) (fresh : String)
    (cwd : List String) (target : Path) (data : Payload) :
    (t.writeUnder refuse fresh cwd target data).1.Same
        (t'.writeUnder refuse fresh cwd target data).1 ∧
      (t.writeUnder refuse fresh cwd target data).2
        = (t'.writeUnder refuse fresh cwd target data).2 := by
  rw [FileNode.writeUnder, FileNode.writeUnder, h.canonicalStrict_eq, h.isDirectoryAt_eq]
  cases t'.canonicalStrict cwd target.parent with
  | error e => exact ⟨h, rfl⟩
  | ok parent =>
    dsimp only
    split
    · exact ⟨h, rfl⟩
    · generalize "." ++ target.name ++ "." ++ fresh ++ ".tmp" = name
      generalize pathOf (parent ++ [name]) = temporary
      obtain ⟨e, hl, hr⟩ | ⟨c, c', hl, hr, hcreated⟩ :=
        ((h.createFile parent name).attempt refuse .create temporary).error_or_ok
      · simp only [hl, hr]
        exact ⟨h, trivial⟩
      simp only [hl, hr]
      cases data.encoded with
      | error e => exact ⟨hcreated.remove parent name, rfl⟩
      | ok content =>
        obtain ⟨e, hl, hr⟩ | ⟨w, w', hl, hr, hwritten⟩ :=
          ((SameResult.ok (hcreated.put parent name (file content))).attempt refuse .write
            temporary).error_or_ok
        · simp only [hl, hr]
          exact ⟨hcreated.remove parent name, trivial⟩
        simp only [hl, hr]
        obtain ⟨e, hl, hr⟩ | ⟨d, d', hl, hr, hdone⟩ :=
          ((hwritten.replace parent name content cwd target).attempt refuse .replace
            temporary).error_or_ok
        · simp only [hl, hr]
          exact ⟨hcreated.remove parent name, trivial⟩
        · simp only [hl, hr]
          exact ⟨hdone, trivial⟩

/-! ## Directories -/

theorem Same.makeDirectory (h : t.Same t') (cwd : List String) (p : Path) :
    SameResult (t.makeDirectory cwd p) (t'.makeDirectory cwd p) := by
  rw [FileNode.makeDirectory, FileNode.makeDirectory, h.locate_eq]
  cases t'.locate cwd p.parent with
  | error fault => exact .error _
  | ok place =>
    dsimp only
    split
    · exact .error _
    · have hstatus := h.status place p.name
      generalize t.status place p.name = u, t'.status place p.name = v at hstatus ⊢
      cases hstatus with
      | ok hnode => exact .error _
      | error fault =>
        cases fault with
        | notFound => exact .ok (h.put place p.name _)
        | _ => exact .error _

/-- A directory that cannot be made is left alone if it is there. -/
theorem Same.or_kept (h : t.Same t') (cwd : List String) (p : Path)
    {a a' : Except FileError FileNode} : SameResult a a' → SameResult
      (match a with
        | .ok made => .ok made
        | .error e => if t.isDirectory cwd p then .ok t else .error e)
      (match a' with
        | .ok made => .ok made
        | .error e => if t'.isDirectory cwd p then .ok t' else .error e) := by
  intro ha
  rw [h.isDirectory_eq]
  cases ha with
  | ok hmade => exact .ok hmade
  | error e =>
    dsimp only
    split
    · exact .ok h
    · exact .error e

theorem Same.makeDirectoriesFrom (h : t.Same t') (cwd : List String) (depth : Nat) (p : Path) :
    SameResult (FileNode.makeDirectoriesFrom cwd depth p t)
      (FileNode.makeDirectoriesFrom cwd depth p t') := by
  induction depth generalizing p with
  | zero =>
    rw [FileNode.makeDirectoriesFrom, FileNode.makeDirectoriesFrom]
    obtain ⟨e, hl, hr⟩ | ⟨m, m', hl, hr, hmade⟩ := (h.makeDirectory cwd p).error_or_ok
    · simp only [hl, hr]
      split
      · exact .error e
      · exact h.or_kept cwd p (.error e)
    · simp only [hl, hr]
      exact .ok hmade
  | succ n ih =>
    rw [FileNode.makeDirectoriesFrom, FileNode.makeDirectoriesFrom]
    obtain ⟨e, hl, hr⟩ | ⟨m, m', hl, hr, hmade⟩ := (h.makeDirectory cwd p).error_or_ok
    · simp only [hl, hr]
      split
      · obtain ⟨e, hl, hr⟩ | ⟨a, a', hl, hr, habove⟩ := (ih p.parent).error_or_ok
        · rw [hl, hr]
          exact .error e
        · rw [hl, hr]
          exact habove.or_kept cwd p (habove.makeDirectory cwd p)
      · exact h.or_kept cwd p (.error e)
    · simp only [hl, hr]
      exact .ok hmade

theorem Same.makeDirectories (h : t.Same t') (cwd : List String) (p : Path) :
    SameResult (t.makeDirectories cwd p) (t'.makeDirectories cwd p) :=
  h.makeDirectoriesFrom cwd _ p

end

end FeatureAtlas.FileNode
