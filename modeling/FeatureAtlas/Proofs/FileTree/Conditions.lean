import FeatureAtlas.FileTree.Write
import FeatureAtlas.Proofs.Except
import FeatureAtlas.Proofs.FileTree.Places

/-!
# When something can be written

Whether directories can be made or a file can be written is a matter of where paths lead and of what is at a
few places. Directories above a missing one are made first; a file is written in the canonical place of its
directory and moved from there to where its path leads.
-/

namespace FeatureAtlas.FileNode

section

variable {t : FileNode} {cwd here names place : List String} {p : Path} {name : String}

/-! ## Names in a directory -/

theorem status_notFound_iff :
    t.status place name = .error .notFound ↔ t.content? place = none ∨
      t.content? place = some .directory ∧ ¬ nameLimit < name.utf8ByteSize ∧
        t.content? (place ++ [name]) = none := by
  rw [status, content?, content?, node?_append]
  cases t.node? place with
  | none => simp
  | some node =>
    cases node with
    | file bytes => simp [content]
    | link target => simp [content]
    | directory entries =>
      rw [Option.bind_some, node?_directory_cons]
      by_cases hlong : nameLimit < name.utf8ByteSize
      · simp [hlong, content]
      · cases hlookup : entries.lookup name <;> simp [hlong, hlookup, content, node?_nil]

/-- A name that a walk can go on with stands for something, and that says how it goes on. -/
theorem exists_status_of_stride {n : String} (hup : n ≠ "..")
    (h : ∀ fault, t.stride place n ≠ .stop fault) :
    ∃ node, t.status place n = .ok node ∧ t.stride place n =
      match node with
      | link target => .jump (place ++ [n]) (Path.ofString target)
      | _ => .go (place ++ [n]) := by
  by_cases hplace : t.content? place = some .directory
  · obtain ⟨entries, hnode⟩ := content?_directory.mp hplace
    rw [stride, if_pos hplace, if_neg hup, content?, node?_append, hnode, Option.bind_some,
      node?_directory_cons] at h ⊢
    rw [status, hnode]
    by_cases hlong : nameLimit < n.utf8ByteSize
    · rw [if_pos hlong] at h
      exact absurd rfl (h _)
    · dsimp only
      rw [if_neg hlong] at h ⊢
      rw [if_neg hlong]
      cases hlookup : entries.lookup n with
      | none =>
        rw [hlookup] at h
        exact absurd rfl (h _)
      | some node =>
        refine ⟨node, rfl, ?_⟩
        rw [Option.bind_some, node?_nil]
        cases node <;> rfl
  · rw [stride, if_neg hplace] at h
    exact absurd rfl (h _)

/-- A walk that is not refused is a walk to the canonical place. -/
theorem canonicalWalk_of_walk {w : Walk} (h : t.walk true here names = .ok w) (strict : Bool) :
    t.canonicalWalk strict here names = .ok w := by
  induction names generalizing here with
  | nil =>
    cases h
    rfl
  | cons n names ih =>
    have hgo : ∀ fault, t.stride here n ≠ .stop fault := by
      intro fault hstop
      rw [walk_cons, hstop] at h
      cases h
    rw [canonicalWalk]
    by_cases hup : n = ".."
    · rw [if_pos (beq_iff_eq.mpr hup)]
      by_cases hhere : t.content? here = some .directory
      · rw [walk_cons, stride, if_pos hhere, if_pos hup] at h
        exact ih h
      · rw [walk_of_not_directory hhere] at h
        cases h
    · rw [if_neg (mt beq_iff_eq.mp hup)]
      obtain ⟨node, hstatus, hstride⟩ := exists_status_of_stride hup hgo
      rw [walk_cons, hstride] at h
      rw [hstatus]
      cases node with
      | link target =>
        cases h
        rfl
      | file bytes => exact ih h
      | directory entries => exact ih h

/-- The first names of a path that leads somewhere are walked to their canonical place. -/
theorem exists_walk_of_follow {k : Nat} {more q : List String} {strict : Bool}
    {result : Except FileError Walk} (hfollow : t.follow true k here (names ++ more) = .ok q)
    (hresult : t.canonicalWalk strict here names = result) :
    ∃ w, result = .ok w ∧ t.walk true here names = .ok w := by
  cases hwalk : t.walk true here names with
  | error fault =>
    rw [follow_of_error (walk_append_of_error hwalk more)] at hfollow
    cases hfollow
  | ok w => exact ⟨w, by rw [← hresult, canonicalWalk_of_walk hwalk], rfl⟩

/-! ## Directories -/

theorem makeDirectory_eq_ok_iff {made : FileNode} :
    t.makeDirectory cwd p = .ok made ↔ ∃ place, t.locate cwd p.parent = .ok place ∧
      (p.name ≠ "" ∧ p.name ≠ "..") ∧ t.status place p.name = .error .notFound ∧
        t.put place p.name (directory []) = made := by
  rw [makeDirectory]
  cases t.locate cwd p.parent with
  | error fault => simp
  | ok place =>
    dsimp only
    by_cases hname : p.name == "" || p.name == ".."
    · rw [if_pos hname]
      have hnot : ¬ (p.name ≠ "" ∧ p.name ≠ "..") := by
        rintro ⟨hne, hup⟩
        simp [hne, hup] at hname
      simp [hnot]
    · rw [if_neg hname]
      have hproper : p.name ≠ "" ∧ p.name ≠ ".." := by simpa using hname
      cases hstatus : t.status place p.name with
      | ok node => simp [hstatus]
      | error fault => cases fault <;> simp [hstatus, hproper]

/-- A new directory lacks its parent exactly if the path to that leads nowhere. -/
theorem makeDirectory_notFound {e : FileError} (h : t.makeDirectory cwd p = .error e)
    (he : e.fault = .notFound) : t.locate cwd p.parent = .error .notFound := by
  rw [makeDirectory] at h
  cases hlocate : t.locate cwd p.parent with
  | error fault =>
    rw [hlocate] at h
    cases h
    exact congrArg _ he
  | ok place =>
    rw [hlocate] at h
    dsimp only at h
    split at h
    · cases h
      cases he
    · cases hstatus : t.status place p.name with
      | ok node =>
        rw [hstatus] at h
        cases h
        cases he
      | error fault =>
        rw [hstatus] at h
        cases fault <;> cases h <;> cases he

theorem makeDirectory_of_notFound (h : t.locate cwd p.parent = .error .notFound) :
    t.makeDirectory cwd p = .error { fault := .notFound, path := p.toString } := by
  rw [makeDirectory, h]

/-- A directory that is there is not made. -/
theorem makeDirectory_of_isDirectory (h : t.isDirectory cwd p = true) :
    t.makeDirectory cwd p = .error { fault := .exists_, path := p.toString } := by
  obtain ⟨q, hlocate, hq⟩ := isDirectory_iff.mp h
  rw [makeDirectory]
  by_cases hparts : p.parts = []
  · have hparent : p.parent = p := by
      rw [Path.parent, hparts]
      cases p
      cases hparts
      rfl
    have hname : p.name = "" := by
      rw [Path.name, hparts]
      rfl
    rw [hparent, hlocate, hname]
    rfl
  · have hfollow : t.follow true linkLimit (if p.isAbsolute then [] else cwd)
        (p.parent.parts ++ [p.name]) = .ok q := by
      rw [Path.parent_append_name hparts]
      exact hlocate
    obtain ⟨place, k, hparent, hlast⟩ := exists_of_follow_append hfollow
    have hlocate' : t.locate cwd p.parent = .ok place := hparent
    rw [hlocate']
    dsimp only
    split
    · rfl
    · next hname =>
      have hup : p.name ≠ ".." := by
        rintro heq
        simp [heq] at hname
      have hgo : ∀ fault, t.stride place p.name ≠ .stop fault := by
        intro fault hstop
        have hwalk : t.walk true place [p.name] = .error fault := by rw [walk_cons, hstop]
        rw [follow_of_error hwalk] at hlast
        cases hlast
      obtain ⟨node, hnode, -⟩ := exists_status_of_stride hup hgo
      rw [hnode]

/-- A directory at the path is there, or is made where all others are. -/
def Ensured (cwd : List String) (p : Path) (t made : FileNode) : Prop :=
  t.makeDirectory cwd p = .ok made ∨ t.isDirectory cwd p = true ∧ t = made

theorem ensured_iff {made : FileNode} :
    (match t.makeDirectory cwd p with
      | .ok made => .ok made
      | .error e => if t.isDirectory cwd p then .ok t else .error e) = Except.ok made ↔
      Ensured cwd p t made := by
  rw [Ensured]
  by_cases hdirectory : t.isDirectory cwd p = true
  · rw [makeDirectory_of_isDirectory hdirectory]
    simp [hdirectory]
  · cases t.makeDirectory cwd p <;> simp [hdirectory]

/-- Directories are made from the top: first those above, if the parent is not there. -/
theorem makeDirectoriesFrom_eq_ok_iff {depth : Nat} {made : FileNode} :
    makeDirectoriesFrom cwd depth p t = .ok made ↔ Ensured cwd p t made ∨
      ∃ n above, depth = n + 1 ∧ t.locate cwd p.parent = .error .notFound ∧
        makeDirectoriesFrom cwd n p.parent t = .ok above ∧ Ensured cwd p above made := by
  by_cases hparent : t.locate cwd p.parent = .error .notFound
  · -- what has no parent is not there and cannot be made
    have hmissing := makeDirectory_of_notFound hparent
    have hnot : ¬ Ensured cwd p t made := by
      rintro (hmade | ⟨hdirectory, -⟩)
      · rw [hmissing] at hmade
        cases hmade
      · rw [makeDirectory_of_isDirectory hdirectory] at hmissing
        cases hmissing
    cases depth with
    | zero =>
      rw [makeDirectoriesFrom, hmissing]
      exact iff_of_false nofun (by simp [hnot])
    | succ n =>
      rw [makeDirectoriesFrom, hmissing]
      simp only [beq_self_eq_true, if_true, bind_eq_ok, hnot, hparent, false_or, true_and,
        Nat.add_right_cancel_iff, exists_and_left, exists_eq_left']
      exact exists_congr fun above ↦ and_congr_right fun _ ↦ ensured_iff
  · have hother : ∀ e, t.makeDirectory cwd p = .error e → (e.fault == .notFound) = false := by
      intro e he
      refine beq_eq_false_iff_ne.mpr fun hfault ↦ ?_
      exact hparent (makeDirectory_notFound he hfault)
    have hsame : makeDirectoriesFrom cwd depth p t = .ok made ↔ Ensured cwd p t made := by
      rw [← ensured_iff]
      cases depth <;>
        · rw [makeDirectoriesFrom]
          cases hmade : t.makeDirectory cwd p with
          | ok m => rfl
          | error e => simp only [hother e hmade, Bool.false_eq_true, if_false]
    rw [hsame]
    simp [hparent]

/-! ## Files -/

theorem isDirectoryAt_iff :
    t.isDirectoryAt place = true ↔ t.content? place = some .directory := by
  rw [isDirectoryAt, content?]
  cases t.node? place with
  | none => simp
  | some node => cases node <;> simp [entries?, content]

/-- The name under which a file is written first. -/
def temporaryName (target : Path) (fresh : String) : String :=
  "." ++ target.name ++ "." ++ fresh ++ ".tmp"

/-- A file can be moved to the path. -/
def Replaceable (t : FileNode) (cwd : List String) (target : Path) : Prop :=
  ∃ place, t.locate cwd target.parent = .ok place ∧ t.content? place = some .directory ∧
    (target.name ≠ ".." ∧ target.name ≠ "" ∧ ¬ nameLimit < target.name.utf8ByteSize) ∧
      t.content? (place ++ [target.name]) ≠ some .directory

/-- A file is moved into the directory that the path of the target's parent leads to. -/
theorem replace_eq_ok_iff {content : List UInt8} {target : Path} {done : FileNode} :
    t.replace parent name content cwd target = .ok done ↔
      ∃ place, t.locate cwd target.parent = .ok place ∧ t.content? place = some .directory ∧
        (target.name ≠ ".." ∧ target.name ≠ "" ∧ ¬ nameLimit < target.name.utf8ByteSize) ∧
          t.content? (place ++ [target.name]) ≠ some .directory ∧
            (t.remove parent name).put place target.name (file content) = done := by
  rw [replace]
  cases t.locate cwd target.parent with
  | error fault => simp
  | ok place =>
    simp only [Except.ok.injEq, exists_eq_left', ne_eq, ← isDirectoryAt_iff]
    by_cases hplace : t.isDirectoryAt place = true
    · by_cases hup : target.name = ".."
      · simp [hplace, hup]
      · by_cases hempty : target.name = ""
        · simp [hplace, hempty]
        · have hname : (target.name == ".." || target.name == "") = false := by
            simp [hup, hempty]
          rw [hplace, hname]
          by_cases hlong : nameLimit < target.name.utf8ByteSize
          · simp [hlong]
          · by_cases htaken : t.isDirectoryAt (place ++ [target.name]) = true
            · simp [hlong, htaken]
            · simp [hlong, htaken, hup, hempty]
    · simp [hplace]

theorem replaceable_iff (t : FileNode) (parent : List String) (name : String)
    (content : List UInt8) (cwd : List String) (target : Path) :
    t.Replaceable cwd target ↔ ∃ done, t.replace parent name content cwd target = .ok done := by
  simp only [replace_eq_ok_iff, Replaceable]
  constructor
  · rintro ⟨place, hlocate, hplace, hname, hfree⟩
    exact ⟨_, place, hlocate, hplace, hname, hfree, rfl⟩
  · rintro ⟨done, place, hlocate, hplace, hname, hfree, -⟩
    exact ⟨place, hlocate, hplace, hname, hfree⟩

theorem write_eq_ok_iff {fresh : String} {cwd : List String} {target : Path} {data : Payload} :
    (t.write fresh cwd target data).2 = .ok () ↔ ∃ parent content,
      t.canonicalStrict cwd target.parent = .ok parent ∧ t.content? parent = some .directory ∧
        ¬ nameLimit < (temporaryName target fresh).utf8ByteSize ∧ data.encoded = .ok content ∧
          ((t.put parent (temporaryName target fresh) (file [])).put parent
            (temporaryName target fresh) (file content)).Replaceable cwd target := by
  rw [write, writeUnder, temporaryName]
  generalize "." ++ target.name ++ "." ++ fresh ++ ".tmp" = name
  cases t.canonicalStrict cwd target.parent with
  | error e => simp
  | ok parent =>
    simp only [Except.ok.injEq, ← isDirectoryAt_iff, attempt, createFile]
    by_cases hparent : t.isDirectoryAt parent = true
    · by_cases hlong : nameLimit < name.utf8ByteSize
      · simp [hparent, hlong]
      · cases data.encoded with
        | error e => simp [hparent, hlong]
        | ok content =>
          rw [hparent, if_neg hlong]
          simp only [exists_and_left, exists_eq_left', Except.ok.injEq]
          generalize (t.put parent name (file [])).put parent name (file content) = written
          rw [written.replaceable_iff parent name content cwd target]
          cases written.replace parent name content cwd target <;> simp [hparent, hlong]
    · simp [hparent]

end

end FeatureAtlas.FileNode
