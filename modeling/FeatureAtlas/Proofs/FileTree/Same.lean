import FeatureAtlas.FileTree.Basic
import FeatureAtlas.Proofs.Table

/-!
# File trees with the same content

A directory keeps its entries in some order, which says nothing about the files. Two trees are the *same* if
at every place they hold the same: nothing, a file of the same bytes, a link to the same target, or a
directory. Whatever follows paths or reads files cannot tell two such trees apart, because it asks one place
after the other.
-/

namespace FeatureAtlas.FileNode

/-- What a node is, apart from what lies below it. -/
inductive Content where
  | file (bytes : List UInt8)
  | link (target : String)
  | directory
deriving DecidableEq, Repr

/-- The content of a node. -/
def content : FileNode → Content
  | file bytes => .file bytes
  | link target => .link target
  | directory _ => .directory

/-- The trees hold the same at every place. -/
def Same (t t' : FileNode) : Prop :=
  ∀ place, (t.node? place).map content = (t'.node? place).map content

theorem Same.refl (t : FileNode) : t.Same t := fun _ ↦ rfl

theorem node?_nil (t : FileNode) : t.node? [] = some t := by
  cases t <;> rfl

theorem node?_directory_cons (entries : List (String × FileNode)) (n : String)
    (rest : List String) :
    (directory entries).node? (n :: rest) = (entries.lookup n).bind (·.node? rest) := by
  rw [node?]
  cases entries.lookup n <;> rfl

theorem node?_append (t : FileNode) (place rest : List String) :
    t.node? (place ++ rest) = (t.node? place).bind (·.node? rest) := by
  induction place generalizing t with
  | nil => rw [node?_nil, List.nil_append, Option.bind_some]
  | cons n place ih =>
    cases t with
    | file bytes => rfl
    | link target => rfl
    | directory entries =>
      rw [List.cons_append, node?_directory_cons, node?_directory_cons, Option.bind_assoc]
      exact congrArg _ (funext ih)

/-- How nodes of same trees look side by side. -/
inductive Alike : Option FileNode → Option FileNode → Prop
  | none : Alike none none
  | file (bytes : List UInt8) : Alike (some (file bytes)) (some (file bytes))
  | link (target : String) : Alike (some (link target)) (some (link target))
  | directory {entries entries' : List (String × FileNode)}
      (h : (directory entries).Same (directory entries')) :
      Alike (some (directory entries)) (some (directory entries'))

theorem Same.alike {t t' : FileNode} (h : t.Same t') (place : List String) :
    Alike (t.node? place) (t'.node? place) := by
  have hbelow : ∀ rest, ((t.node? place).bind (·.node? rest)).map content
      = ((t'.node? place).bind (·.node? rest)).map content := by
    intro rest
    rw [← node?_append, ← node?_append]
    exact h (place ++ rest)
  have hhere := h place
  cases hu : t.node? place with
  | none =>
    cases hv : t'.node? place with
    | none => exact .none
    | some v =>
      rw [hu, hv] at hhere
      cases hhere
  | some u =>
    cases hv : t'.node? place with
    | none =>
      rw [hu, hv] at hhere
      cases hhere
    | some v =>
      rw [hu, hv] at hhere hbelow
      have hcontent := Option.some.inj hhere
      cases u <;> cases v <;> cases hcontent
      · exact .file _
      · exact .directory hbelow
      · exact .link _

theorem Same.alike_lookup {entries entries' : List (String × FileNode)}
    (h : (directory entries).Same (directory entries')) (n : String) :
    Alike (entries.lookup n) (entries'.lookup n) := by
  have hlookup : ∀ es : List (String × FileNode), (directory es).node? [n] = es.lookup n := by
    intro es
    rw [node?_directory_cons]
    cases es.lookup n with
    | none => rfl
    | some node => exact node?_nil node
  rw [← hlookup, ← hlookup]
  exact h.alike [n]

theorem alike_some_iff {u v : FileNode} : Alike (some u) (some v) ↔ u.Same v := by
  constructor
  · intro h
    cases h with
    | file bytes => exact Same.refl _
    | link target => exact Same.refl _
    | directory h => exact h
  · intro h
    rw [← node?_nil u, ← node?_nil v]
    exact h.alike []

theorem same_directory_iff {entries entries' : List (String × FileNode)} :
    (directory entries).Same (directory entries') ↔
      ∀ n, Alike (entries.lookup n) (entries'.lookup n) := by
  refine ⟨fun h n ↦ h.alike_lookup n, fun h place ↦ ?_⟩
  cases place with
  | nil => rfl
  | cons n rest =>
    have hn := h n
    rw [node?_directory_cons, node?_directory_cons]
    generalize entries.lookup n = u, entries'.lookup n = v at hn ⊢
    cases hn with
    | none | file | link => rfl
    | directory hsame => exact hsame rest

/-- The order of the entries of a directory does not count. -/
theorem same_of_perm {entries entries' : List (String × FileNode)}
    (hkeys : Table.NodupKeys entries) (h : entries.Perm entries') :
    (directory entries).Same (directory entries') := by
  refine same_directory_iff.mpr fun n ↦ ?_
  have hlookup : entries.lookup n = entries'.lookup n := by
    refine Option.ext fun node ↦ ?_
    have hkeys' : Table.NodupKeys entries' := (h.map Prod.fst).nodup hkeys
    rw [Table.lookup_eq_some_iff_mem hkeys, Table.lookup_eq_some_iff_mem hkeys', h.mem_iff]
  rw [hlookup]
  cases entries'.lookup n with
  | none => exact .none
  | some node => exact alike_some_iff.mpr (Same.refl node)

/-! ## Following paths -/

section

variable {t t' : FileNode}

theorem Same.walk_eq (h : t.Same t') (followLast : Bool) (here names : List String) :
    t.walk followLast here names = t'.walk followLast here names := by
  induction names generalizing here with
  | nil => rfl
  | cons n rest ih =>
    have halike := h.alike here
    rw [walk, walk]
    generalize t.node? here = u, t'.node? here = v at halike ⊢
    cases halike with
    | none | file | link => rfl
    | @directory entries entries' hsame =>
      dsimp only
      rw [ih here.dropLast, ih (here ++ [n])]
      have hentry := hsame.alike_lookup n
      generalize entries.lookup n = e, entries'.lookup n = e' at hentry ⊢
      cases hentry <;> rfl

theorem Same.follow_eq (h : t.Same t') (followLast : Bool) (links : Nat)
    (here names : List String) :
    t.follow followLast links here names = t'.follow followLast links here names := by
  induction links generalizing here names with
  | zero => rw [follow, follow, h.walk_eq]
  | succ links ih =>
    rw [follow, follow, h.walk_eq]
    simp only [ih]

theorem Same.locate_eq (h : t.Same t') : t.locate = t'.locate := by
  funext cwd p
  exact h.follow_eq _ _ _ _

theorem Same.present_eq (h : t.Same t') : t.present = t'.present := by
  funext cwd p
  rw [present, present, h.locate_eq]

theorem Same.isDirectory_eq (h : t.Same t') : t.isDirectory = t'.isDirectory := by
  funext cwd p
  rw [isDirectory, isDirectory, find?, find?, h.locate_eq]
  cases t'.locate cwd p with
  | error fault => rfl
  | ok place =>
    have halike := h.alike place
    simp only [Except.toOption, Option.bind_eq_bind, Option.bind_some]
    generalize t.node? place = u, t'.node? place = v at halike ⊢
    cases halike <;> rfl

/-! ## Reading -/

theorem Same.read_eq (h : t.Same t') : t.read = t'.read := by
  funext cwd p
  rw [read, read, h.locate_eq]
  cases t'.locate cwd p with
  | error fault => rfl
  | ok place =>
    have halike := h.alike place
    dsimp only
    generalize t.node? place = u, t'.node? place = v at halike ⊢
    cases halike <;> rfl

theorem Same.readRawText_eq (h : t.Same t') : t.readRawText = t'.readRawText := by
  funext cwd p
  rw [readRawText, readRawText, h.read_eq]

theorem Same.readText_eq (h : t.Same t') : t.readText = t'.readText := by
  funext cwd p
  rw [readText, readText, h.readRawText_eq]

end

end FeatureAtlas.FileNode
