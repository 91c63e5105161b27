import FeatureAtlas.Proofs.FileTree.Same

/-!
# Following paths step by step

A walk asks one place after the other for its content alone. Names can be followed in two parts: first those
up to some place, then the rest from there. Only the number of links differs between the two ways, so the
whole may meet one link too many; apart from that it goes on where the first part ended.
-/

namespace FeatureAtlas.FileNode

/-- What is at a place. -/
def content? (t : FileNode) (place : List String) : Option Content := (t.node? place).map content

theorem content?_directory_cons (entries : List (String × FileNode)) (n : String)
    (rest : List String) :
    (directory entries).content? (n :: rest) = (entries.lookup n).bind (·.content? rest) := by
  rw [content?, node?_directory_cons, Option.map_bind]
  rfl

theorem content?_directory {t : FileNode} {place : List String} :
    t.content? place = some .directory ↔ ∃ entries, t.node? place = some (directory entries) := by
  rw [content?]
  cases t.node? place with
  | none => simp
  | some node => cases node <;> simp [content]

theorem content?_file {t : FileNode} {place : List String} {bytes : List UInt8} :
    t.content? place = some (.file bytes) ↔ t.node? place = some (file bytes) := by
  rw [content?]
  cases t.node? place with
  | none => simp
  | some node => cases node <;> simp [content]

theorem content?_link {t : FileNode} {place : List String} {target : String} :
    t.content? place = some (.link target) ↔ t.node? place = some (link target) := by
  rw [content?]
  cases t.node? place with
  | none => simp
  | some node => cases node <;> simp [content]

/-- Only a directory has something below it. -/
theorem content?_of_append {t : FileNode} {place rest : List String} (hrest : rest ≠ [])
    (h : t.content? (place ++ rest) ≠ none) : t.content? place = some .directory := by
  obtain ⟨n, r, rfl⟩ := List.exists_cons_of_ne_nil hrest
  rw [content?, node?_append] at h
  rw [content?]
  cases hnode : t.node? place with
  | none => simp [hnode] at h
  | some node =>
    cases node with
    | directory entries => rfl
    | file bytes => simp [hnode, node?] at h
    | link target => simp [hnode, node?] at h

/-! ## Walks -/

/-- What the next name does to a walk. -/
inductive Stride where
  | stop (fault : FileFault)
  | go (place : List String)
  | jump (place : List String) (target : Path)

/-- The next step of a walk, by the content of the places alone. -/
def stride (t : FileNode) (here : List String) (n : String) : Stride :=
  if t.content? here = some .directory then
    if n = ".." then .go here.dropLast
    else if nameLimit < n.utf8ByteSize then .stop .nameTooLong
    else match t.content? (here ++ [n]) with
      | none => .stop .notFound
      | some (.link target) => .jump (here ++ [n]) (Path.ofString target)
      | some _ => .go (here ++ [n])
  else .stop .notDirectory

theorem walk_cons (t : FileNode) (here : List String) (n : String) (rest : List String) :
    t.walk true here (n :: rest) =
      match t.stride here n with
      | .stop fault => .error fault
      | .go place => t.walk true place rest
      | .jump place target => .ok (.linked place target rest) := by
  rw [walk, stride]
  cases hnode : t.node? here with
  | none => simp [content?, hnode]
  | some node =>
    cases node with
    | file bytes => simp [content?, hnode, content]
    | link target => simp [content?, hnode, content]
    | directory entries =>
      have hhere : t.content? here = some .directory := content?_directory.mpr ⟨entries, hnode⟩
      have hbelow : t.content? (here ++ [n]) = (entries.lookup n).map content := by
        rw [content?, node?_append, hnode, Option.bind_some, node?_directory_cons]
        cases entries.lookup n with
        | none => rfl
        | some child => rw [Option.bind_some, node?_nil]
      rw [if_pos hhere, hbelow]
      dsimp only
      by_cases hup : n = ".."
      · rw [if_pos hup, if_pos (beq_iff_eq.mpr hup)]
      · rw [if_neg hup, if_neg (mt beq_iff_eq.mp hup)]
        by_cases hlong : nameLimit < n.utf8ByteSize
        · rw [if_pos hlong, if_pos hlong]
        · rw [if_neg hlong, if_neg hlong]
          cases entries.lookup n with
          | none => rfl
          | some child =>
            cases child with
            | link target => simp [content]
            | file bytes => rfl
            | directory below => rfl

section

variable {t : FileNode} {here place : List String} {names rest : List String} {target : Path}

theorem walk_of_not_directory (h : t.content? here ≠ some .directory) (n : String) :
    t.walk true here (n :: rest) = .error .notDirectory := by
  rw [walk_cons, stride, if_neg h]

/-- A walk that arrives goes on from there. -/
theorem walk_append_of_reached (h : t.walk true here names = .ok (.reached place))
    (more : List String) : t.walk true here (names ++ more) = t.walk true place more := by
  induction names generalizing here with
  | nil =>
    cases h
    rfl
  | cons n names ih =>
    rw [walk_cons] at h
    rw [List.cons_append, walk_cons]
    cases hstride : t.stride here n with
    | stop fault =>
      rw [hstride] at h
      cases h
    | go next =>
      rw [hstride] at h
      exact ih h
    | jump next target =>
      rw [hstride] at h
      cases h

/-- A walk that is refused is refused with more names behind it. -/
theorem walk_append_of_error {fault : FileFault} (h : t.walk true here names = .error fault)
    (more : List String) : t.walk true here (names ++ more) = .error fault := by
  induction names generalizing here with
  | nil => cases h
  | cons n names ih =>
    rw [walk_cons] at h
    rw [List.cons_append, walk_cons]
    cases hstride : t.stride here n with
    | stop fault =>
      rw [hstride] at h
      exact h
    | go next =>
      rw [hstride] at h
      exact ih h
    | jump next target =>
      rw [hstride] at h
      cases h

/-- A walk that meets a link meets it with more names behind it. -/
theorem walk_append_of_linked (h : t.walk true here names = .ok (.linked place target rest))
    (more : List String) :
    t.walk true here (names ++ more) = .ok (.linked place target (rest ++ more)) := by
  induction names generalizing here with
  | nil => cases h
  | cons n names ih =>
    rw [walk_cons] at h
    rw [List.cons_append, walk_cons]
    cases hstride : t.stride here n with
    | stop fault =>
      rw [hstride] at h
      cases h
    | go next =>
      rw [hstride] at h
      exact ih h
    | jump next target =>
      rw [hstride] at h
      cases h
      rfl

/-! ## Links -/

theorem follow_of_error {fault : FileFault} (h : t.walk true here names = .error fault)
    (links : Nat) : t.follow true links here names = .error fault := by
  rw [follow, h]
  rfl

theorem follow_of_reached (h : t.walk true here names = .ok (.reached place)) (links : Nat) :
    t.follow true links here names = .ok place := by
  rw [follow, h]
  rfl

theorem follow_of_linked (h : t.walk true here names = .ok (.linked place target rest))
    (links : Nat) :
    t.follow true (links + 1) here names
      = t.follow true links (linkBase place target) (target.parts ++ rest) := by
  rw [follow, h]
  rfl

theorem follow_zero_of_linked (h : t.walk true here names = .ok (.linked place target rest)) :
    t.follow true 0 here names = .error .tooManyLinks := by
  rw [follow, h]
  rfl

theorem follow_congr {here' names' : List String}
    (h : t.walk true here names = t.walk true here' names') (links : Nat) :
    t.follow true links here names = t.follow true links here' names' := by
  rw [follow, follow, h]

/-- Following ends where the walk does, or goes on behind the first link. -/
theorem walk_of_follow {links : Nat} (h : t.follow true links here names = .ok place) :
    t.walk true here names = .ok (.reached place) ∨
      ∃ left q target rest, links = left + 1 ∧
        t.walk true here names = .ok (.linked q target rest) ∧
        t.follow true left (linkBase q target) (target.parts ++ rest) = .ok place := by
  cases hwalk : t.walk true here names with
  | error fault =>
    rw [follow_of_error hwalk] at h
    cases h
  | ok walk =>
    cases walk with
    | reached q =>
      rw [follow_of_reached hwalk] at h
      exact .inl (by rw [Except.ok.inj h])
    | linked q target rest =>
      cases links with
      | zero =>
        rw [follow_zero_of_linked hwalk] at h
        cases h
      | succ left =>
        rw [follow_of_linked hwalk] at h
        exact .inr ⟨left, q, target, rest, rfl, rfl, h⟩

/-- **Names are followed in two parts.** Where the first of them lead to a place, the whole meets one link too
many, or goes on from that place. -/
theorem follow_append {links : Nat} (h : t.follow true links here names = .ok place) (links' : Nat)
    (more : List String) :
    t.follow true links' here (names ++ more) = .error .tooManyLinks ∨
      ∃ k, t.follow true links' here (names ++ more) = t.follow true k place more := by
  -- The links of the first part are links of the whole, so the induction is on their number.
  induction links generalizing here names links' with
  | zero =>
    obtain hwalk | ⟨left, q, target, rest, hleft, -, -⟩ := walk_of_follow h
    · exact .inr ⟨links', follow_congr (walk_append_of_reached hwalk more) links'⟩
    · cases hleft
  | succ links ih =>
    obtain hwalk | ⟨left, q, target, rest, hleft, hwalk, hfollow⟩ := walk_of_follow h
    · exact .inr ⟨links', follow_congr (walk_append_of_reached hwalk more) links'⟩
    · obtain rfl := Nat.succ.inj hleft
      have hmore := walk_append_of_linked hwalk more
      cases links' with
      | zero => exact .inl (follow_zero_of_linked hmore)
      | succ links' =>
        rw [follow_of_linked hmore, ← List.append_assoc]
        exact ih hfollow links'

/-- Names behind those that lead to a place are followed from there, with the links that are left. -/
theorem exists_follow_append {links : Nat} (h : t.follow true links here names = .ok place) :
    ∃ k, ∀ more, t.follow true links here (names ++ more) = t.follow true k place more := by
  induction links generalizing here names with
  | zero =>
    obtain hwalk | ⟨left, q, target, rest, hleft, -, -⟩ := walk_of_follow h
    · exact ⟨0, fun more ↦ follow_congr (walk_append_of_reached hwalk more) 0⟩
    · cases hleft
  | succ links ih =>
    obtain hwalk | ⟨left, q, target, rest, hleft, hwalk, hfollow⟩ := walk_of_follow h
    · exact ⟨links + 1, fun more ↦ follow_congr (walk_append_of_reached hwalk more) _⟩
    · obtain rfl := Nat.succ.inj hleft
      obtain ⟨k, hk⟩ := ih hfollow
      refine ⟨k, fun more ↦ ?_⟩
      rw [follow_of_linked (walk_append_of_linked hwalk more), ← List.append_assoc, hk]

/-- Where names lead somewhere, so do the first of them. -/
theorem exists_of_follow_append {links : Nat} {more : List String}
    (h : t.follow true links here (names ++ more) = .ok place) :
    ∃ q k, t.follow true links here names = .ok q ∧ t.follow true k q more = .ok place := by
  induction links generalizing here names with
  | zero =>
    cases hwalk : t.walk true here names with
    | error fault =>
      rw [follow_of_error (walk_append_of_error hwalk more)] at h
      cases h
    | ok walk =>
      cases walk with
      | reached q =>
        rw [follow_congr (walk_append_of_reached hwalk more)] at h
        exact ⟨q, 0, follow_of_reached hwalk 0, h⟩
      | linked q target rest =>
        rw [follow_zero_of_linked (walk_append_of_linked hwalk more)] at h
        cases h
  | succ links ih =>
    cases hwalk : t.walk true here names with
    | error fault =>
      rw [follow_of_error (walk_append_of_error hwalk more)] at h
      cases h
    | ok walk =>
      cases walk with
      | reached q =>
        rw [follow_congr (walk_append_of_reached hwalk more)] at h
        exact ⟨q, links + 1, follow_of_reached hwalk _, h⟩
      | linked q target rest =>
        rw [follow_of_linked (walk_append_of_linked hwalk more), ← List.append_assoc] at h
        rw [follow_of_linked hwalk]
        exact ih h

end

end FeatureAtlas.FileNode
