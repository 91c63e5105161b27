import FeatureAtlas.Proofs.FileTree.Change
import FeatureAtlas.Proofs.FileTree.Conditions

/-!
# Writing to a tree without garbled files

Whatever can be written to a tree can be written to it without some of its garbled files. The way to a
directory leads through directories and links, never through a garbled place; so it stays, and the places of
the directories to make and of the file to write stay with it. The way back does not hold, because a garbled
file may stand where a directory is to be made.
-/

namespace FeatureAtlas.FileNode

/-! ## Ways -/

/-- The second tree has the directories and the links of the first. -/
def HasWays (t u : FileNode) : Prop :=
  ∀ place c, t.content? place = some c → (∃ bytes, c = .file bytes) ∨ u.content? place = some c

section

variable {t u : FileNode}

theorem HasWays.content?_directory (h : HasWays t u) {place : List String}
    (hplace : t.content? place = some .directory) : u.content? place = some .directory := by
  obtain ⟨bytes, hfile⟩ | hplace' := h place _ hplace
  · cases hfile
  · exact hplace'

theorem HasWays.stride (h : HasWays t u) (here : List String) (n : String) :
    (∃ fault, t.stride here n = .stop fault) ∨ u.stride here n = t.stride here n ∨
      t.stride here n = .go (here ++ [n]) ∧
        (∃ bytes, t.content? (here ++ [n]) = some (.file bytes)) ∧
        u.content? (here ++ [n]) ≠ t.content? (here ++ [n]) := by
  by_cases hdirectory : t.content? here = some .directory
  · have hdirectory' := h.content?_directory hdirectory
    rw [FileNode.stride, FileNode.stride, if_pos hdirectory, if_pos hdirectory']
    by_cases hup : n = ".."
    · rw [if_pos hup, if_pos hup]
      exact .inr (.inl rfl)
    · rw [if_neg hup, if_neg hup]
      by_cases hlong : nameLimit < n.utf8ByteSize
      · rw [if_pos hlong, if_pos hlong]
        exact .inl ⟨_, rfl⟩
      · rw [if_neg hlong, if_neg hlong]
        by_cases hsame : u.content? (here ++ [n]) = t.content? (here ++ [n])
        · rw [hsame]
          exact .inr (.inl rfl)
        · cases hcontent : t.content? (here ++ [n]) with
          | none => exact .inl ⟨_, rfl⟩
          | some c =>
            obtain ⟨bytes, rfl⟩ | hsame' := h _ c hcontent
            · exact .inr (.inr ⟨rfl, ⟨bytes, rfl⟩, hcontent ▸ hsame⟩)
            · exact absurd (hsame'.trans hcontent.symm) hsame
  · rw [FileNode.stride, if_neg hdirectory]
    exact .inl ⟨_, rfl⟩

theorem HasWays.walk (h : HasWays t u) {here names : List String} {w : Walk}
    (hwalk : t.walk true here names = .ok w)
    (hend : ∀ q, w = .reached q → u.content? q = t.content? q) :
    u.walk true here names = .ok w := by
  induction names generalizing here with
  | nil => exact hwalk
  | cons n names ih =>
    rw [walk_cons] at hwalk ⊢
    obtain ⟨fault, hstop⟩ | hsame | ⟨hgo, ⟨bytes, hfile⟩, hne⟩ := h.stride here n
    · rw [hstop] at hwalk
      cases hwalk
    · rw [hsame]
      cases hstride : t.stride here n with
      | stop fault =>
        rw [hstride] at hwalk
        cases hwalk
      | go place =>
        rw [hstride] at hwalk
        exact ih hwalk
      | jump place target =>
        rw [hstride] at hwalk
        exact hwalk
    · -- a file is the end of a way
      rw [hgo] at hwalk
      cases names with
      | nil =>
        cases hwalk
        exact absurd (hend _ rfl) hne
      | cons m names =>
        have hne : t.content? (here ++ [n]) ≠ some .directory := by
          rw [hfile]
          exact nofun
        dsimp only at hwalk
        rw [walk_of_not_directory hne m] at hwalk
        cases hwalk

/-- A path leads in the second tree to the same place, if that has the same content in both. -/
theorem HasWays.follow (h : HasWays t u) {links : Nat} {here names q : List String}
    (hfollow : t.follow true links here names = .ok q) (hq : u.content? q = t.content? q) :
    u.follow true links here names = .ok q := by
  induction links generalizing here names with
  | zero =>
    obtain hwalk | ⟨left, place, target, rest, hleft, -, -⟩ := walk_of_follow hfollow
    · refine follow_of_reached (h.walk hwalk ?_) 0
      rintro place ⟨⟩
      exact hq
    · cases hleft
  | succ links ih =>
    obtain hwalk | ⟨left, place, target, rest, hleft, hwalk, hfollow⟩ := walk_of_follow hfollow
    · refine follow_of_reached (h.walk hwalk ?_) _
      rintro place ⟨⟩
      exact hq
    · cases hleft
      rw [follow_of_linked (h.walk hwalk nofun)]
      exact ih hfollow

theorem hasWays_put_new {place : List String} {name : String} {node : FileNode}
    (hname : t.content? (place ++ [name]) = none) : HasWays t (t.put place name node) :=
  fun _ _ hq ↦ .inr (content?_put_new hname hq)

/-- A file that is put somewhere makes no new ways. -/
theorem hasWays_of_put_file (t : FileNode) (place : List String) (name : String)
    (bytes : List UInt8) : HasWays (t.put place name (file bytes)) t := by
  intro q c hq
  rw [content?_put] at hq
  split at hq
  · cases hdrop : q.drop (place.length + 1) with
    | nil =>
      rw [hdrop] at hq
      exact .inl ⟨bytes, (Option.some.inj hq).symm⟩
    | cons n r =>
      rw [hdrop] at hq
      cases hq
  · exact .inr hq

/-- A way to a directory beside a file that was put somewhere was there before. -/
theorem locate_of_put_file {place cwd q : List String} {name : String} {bytes : List UInt8}
    {p : Path} (h : (t.put place name (file bytes)).locate cwd p = .ok q)
    (hq : (t.put place name (file bytes)).content? q = some .directory) :
    t.locate cwd p = .ok q ∧ t.content? q = some .directory := by
  have hways := hasWays_of_put_file t place name bytes
  have hbefore := hways.content?_directory hq
  exact ⟨hways.follow h (hbefore.trans hq.symm), hbefore⟩

end

/-! ## Making directories -/

section

variable {t t' : FileNode} {gone : List String → Prop} {cwd place : List String} {p : Path}
  {name : String}

theorem Fewer.content?_eq_none (h : Fewer t t' gone) (hplace : t.content? place = none) :
    t'.content? place = none := by
  by_cases hgone : gone place
  · exact h.deleted place hgone
  · rw [h.kept place hgone, hplace]

theorem Fewer.content?_put (h : Fewer t t' gone) (place : List String) (name : String)
    (node : FileNode) (q : List String) :
    (t'.put place name node).content? q =
      if t.content? place = some .directory ∧ place ++ [name] <+: q then
        node.content? (q.drop (place.length + 1))
      else t'.content? q := by
  rw [FileNode.content?_put]
  simp only [h.content?_directory_iff]

theorem LeadsToGarbled.exists_content (h : t.LeadsToGarbled place) :
    ∃ c, t.content? place = some c := by
  cases h with
  | file h =>
    obtain ⟨bytes, e, hcontent, -⟩ := h
    exact ⟨_, hcontent⟩
  | link target hlink => exact ⟨_, hlink⟩

/-- What leads to a garbled file still does so beside something new. -/
theorem LeadsToGarbled.put_new {q : List String} {node : FileNode} (h : t.LeadsToGarbled q)
    (hname : t.content? (place ++ [name]) = none) :
    (t.put place name node).LeadsToGarbled q := by
  have hgarbled : ∀ r, t.Garbled r → (t.put place name node).Garbled r := by
    rintro r ⟨bytes, e, hcontent, he⟩
    exact ⟨bytes, e, content?_put_new hname hcontent, he⟩
  cases h with
  | file h => exact .file (hgarbled q h)
  | link target hlink links r hfollow h =>
    have hr := h
    obtain ⟨bytes, e, hcontent, -⟩ := hr
    refine .link target (content?_put_new hname hlink) links r ?_ (hgarbled r h)
    exact (hasWays_put_new hname).follow hfollow
      ((content?_put_new hname hcontent).trans hcontent.symm)

theorem Without.put_new (h : Without t t' gone) (node : FileNode)
    (hname : t.content? (place ++ [name]) = none) :
    Without (t.put place name node) (t'.put place name node) gone := by
  refine ⟨⟨?_, ?_, ?_⟩, fun q hq ↦ (h.garbled q hq).put_new hname⟩
  · intro q hq
    exact ((h.garbled q hq).put_new hname).ne_directory
  · intro q hq
    obtain ⟨c, hc⟩ := (h.garbled q hq).exists_content
    rw [h.content?_put, if_neg fun hnew ↦ not_prefix_of_content? hname hc hnew.2]
    exact h.deleted q hq
  · intro q hq
    rw [h.content?_put, content?_put, h.kept q hq]

theorem Without.locate_eq_ok (h : Without t t' gone) (hlocate : t.locate cwd p = .ok place)
    (hplace : ¬ t.Garbled place) : t'.locate cwd p = .ok place := by
  obtain hsame | ⟨-, hspoiled⟩ := h.locate cwd p
  · exact hsame.trans hlocate
  · rw [hlocate] at hspoiled
    cases hspoiled with
    | garbled hgarbled => exact absurd hgarbled hplace

theorem Without.locate_notFound (h : Without t t' gone)
    (hlocate : t.locate cwd p = .error .notFound) : t'.locate cwd p = .error .notFound := by
  obtain hsame | ⟨hnone, -⟩ := h.locate cwd p
  · exact hsame.trans hlocate
  · exact hnone

/-- A directory that can be made can be made without garbled files. -/
theorem Without.makeDirectory {made : FileNode} (h : Without t t' gone)
    (hmade : t.makeDirectory cwd p = .ok made) :
    ∃ made', t'.makeDirectory cwd p = .ok made' ∧ Without made made' gone := by
  obtain ⟨place, hlocate, hname, hstatus, rfl⟩ := makeDirectory_eq_ok_iff.mp hmade
  have hplace := status_notFound_iff.mp hstatus
  have htext : ¬ t.Garbled place := by
    rintro ⟨bytes, e, hfile, -⟩
    rw [hfile] at hplace
    obtain hnone | ⟨hdirectory, -⟩ := hplace
    · cases hnone
    · cases hdirectory
  have hstatus' : t'.status place p.name = .error .notFound := by
    refine status_notFound_iff.mpr (hplace.imp h.content?_eq_none ?_)
    rintro ⟨hdirectory, hshort, hnone⟩
    exact ⟨(h.content?_directory_iff place).mpr hdirectory, hshort, h.content?_eq_none hnone⟩
  refine ⟨_, makeDirectory_eq_ok_iff.mpr
    ⟨place, h.locate_eq_ok hlocate htext, hname, hstatus', rfl⟩, h.put_new _ ?_⟩
  obtain hnone | ⟨-, -, hnone⟩ := hplace
  · refine Decidable.byContradiction fun hne ↦ ?_
    have hdirectory := content?_of_append (List.cons_ne_nil _ _) hne
    rw [hnone] at hdirectory
    cases hdirectory
  · exact hnone

theorem Without.ensured {made : FileNode} (h : Without t t' gone) (hmade : Ensured cwd p t made) :
    ∃ made', Ensured cwd p t' made' ∧ Without made made' gone := by
  obtain hmade | ⟨hdirectory, rfl⟩ := hmade
  · obtain ⟨made', hmade', hwithout⟩ := h.makeDirectory hmade
    exact ⟨made', .inl hmade', hwithout⟩
  · exact ⟨t', .inr ⟨(h.isDirectory_eq cwd p).trans hdirectory, rfl⟩, h⟩

/-- **Directories that can be made can be made without garbled files.** -/
theorem Without.makeDirectoriesFrom {made : FileNode} (h : Without t t' gone) {depth : Nat}
    (hmade : FileNode.makeDirectoriesFrom cwd depth p t = .ok made) :
    ∃ made', FileNode.makeDirectoriesFrom cwd depth p t' = .ok made' ∧ Without made made' gone := by
  induction depth generalizing p made with
  | zero =>
    obtain hensured | ⟨n, above, hn, -⟩ := makeDirectoriesFrom_eq_ok_iff.mp hmade
    · obtain ⟨made', hmade', hwithout⟩ := h.ensured hensured
      exact ⟨made', makeDirectoriesFrom_eq_ok_iff.mpr (.inl hmade'), hwithout⟩
    · cases hn
  | succ depth ih =>
    obtain hensured | ⟨n, above, hn, hparent, habove, hensured⟩ :=
      makeDirectoriesFrom_eq_ok_iff.mp hmade
    · obtain ⟨made', hmade', hwithout⟩ := h.ensured hensured
      exact ⟨made', makeDirectoriesFrom_eq_ok_iff.mpr (.inl hmade'), hwithout⟩
    · cases hn
      obtain ⟨above', habove', hwithout⟩ := ih habove
      obtain ⟨made', hmade', hwithout⟩ := hwithout.ensured hensured
      refine ⟨made', makeDirectoriesFrom_eq_ok_iff.mpr (.inr ?_), hwithout⟩
      exact ⟨depth, above', rfl, h.locate_notFound hparent, habove', hmade'⟩

end

/-! ## Canonical places -/

section

variable {t t' : FileNode} {gone : List String → Prop} {here names : List String}

theorem Fewer.walk_eq_ok (h : Fewer t t' gone) {w : Walk} (hwalk : t'.walk true here names = .ok w) :
    t.walk true here names = .ok w := by
  obtain hsame | ⟨hnone, -⟩ := h.walk here names
  · exact hsame.symm.trans hwalk
  · rw [hnone] at hwalk
    cases hwalk

/-- The first names of a path that leads somewhere without the deleted places are walked alike. -/
theorem Fewer.exists_walk (h : Fewer t t' gone) {k : Nat} {more q : List String} {strict : Bool}
    {result : Except FileError Walk}
    (hfollow : t'.follow true k here (names ++ more) = .ok q)
    (hresult : t'.canonicalWalk strict here names = result) :
    ∃ w, result = .ok w ∧ t'.walk true here names = .ok w ∧
      t.canonicalWalk strict here names = .ok w := by
  obtain ⟨w, hw, hwalk⟩ := exists_walk_of_follow hfollow hresult
  exact ⟨w, hw, hwalk, canonicalWalk_of_walk (h.walk_eq_ok hwalk) strict⟩

/-- A path that leads somewhere without the deleted places has the same canonical place with them. -/
theorem Fewer.canonicalFrom_eq (h : Fewer t t' gone) {strict : Bool} {links k : Nat}
    {frames : List (List String × List String)} {q : List String}
    (hfollow : t'.follow true k here (names ++ frames.flatMap Prod.snd) = .ok q) :
    t'.canonicalFrom strict links frames here names
      = t.canonicalFrom strict links frames here names := by
  -- The names behind the links in the frames are still to be followed.
  fun_induction canonicalFrom t' strict links frames here names generalizing k with
  | case1 links frames here names e hwalk =>
    obtain ⟨w, hok, -⟩ := h.exists_walk hfollow hwalk
    cases hok
  | case2 links here names place hwalk =>
    obtain ⟨w, ⟨⟩, -, hwalk'⟩ := h.exists_walk hfollow hwalk
    rw [canonicalFrom.eq_def t, hwalk']
  | case3 links here names place hwalk link rest outer ih =>
    obtain ⟨w, ⟨⟩, hw, hwalk'⟩ := h.exists_walk hfollow hwalk
    rw [follow_congr (walk_append_of_reached hw _)] at hfollow
    rw [canonicalFrom.eq_def t, hwalk']
    exact ih (k := k) hfollow
  | case4 links frames here names place target rest hwalk hmet =>
    obtain ⟨w, ⟨⟩, -, hwalk'⟩ := h.exists_walk hfollow hwalk
    rw [canonicalFrom.eq_def t, hwalk']
    simp only [if_pos hmet]
  | case5 frames here names place target rest hwalk hmet =>
    obtain ⟨w, ⟨⟩, -, hwalk'⟩ := h.exists_walk hfollow hwalk
    rw [canonicalFrom.eq_def t, hwalk']
  | case6 frames here names place target rest hwalk hmet links ih =>
    obtain ⟨w, ⟨⟩, hw, hwalk'⟩ := h.exists_walk hfollow hwalk
    rw [canonicalFrom.eq_def t, hwalk']
    simp only [if_neg hmet]
    have hlinked := walk_append_of_linked hw (frames.flatMap Prod.snd)
    cases k with
    | zero =>
      rw [follow_zero_of_linked hlinked] at hfollow
      cases hfollow
    | succ k =>
      rw [follow_of_linked hlinked] at hfollow
      exact ih (k := k) hfollow

end

/-! ## Writing files -/

/-- The second tree is the first one without some places, through none of which a way leads to a
directory. -/
structure Aside (t t' : FileNode) (gone : List String → Prop) : Prop extends Fewer t t' gone where
  aside : ∀ place target, gone place → t.content? place = some (.link target) → ∀ links rest q,
    t.follow true links (linkBase place (Path.ofString target))
        ((Path.ofString target).parts ++ rest) = .ok q →
      t.content? q ≠ some .directory

section

variable {t t' : FileNode} {gone : List String → Prop}

theorem Without.toAside (h : Without t t' gone) : Aside t t' gone := by
  refine ⟨h.toFewer, fun place target hgone hlink links rest q hfollow ↦ ?_⟩
  cases h.garbled place hgone with
  | file hfile =>
    obtain ⟨bytes, e, hcontent, -⟩ := hfile
    rw [hlink] at hcontent
    cases hcontent
  | link target' hlink' links' r hfollow' hr =>
    rw [hlink] at hlink'
    cases hlink'
    obtain hmany | ⟨k, hk⟩ := follow_append hfollow' links rest
    · rw [hmany] at hfollow
      cases hfollow
    · have hspoiled := hr.spoiled k rest
      rw [← hk, hfollow] at hspoiled
      cases hspoiled with
      | garbled hq => exact hq.ne_directory

/-- A way to a directory does not come to a deleted place. -/
theorem Aside.walk_eq (h : Aside t t' gone) {links : Nat} {here names q : List String}
    (hfollow : t.follow true links here names = .ok q) (hq : t.content? q = some .directory) :
    t'.walk true here names = t.walk true here names := by
  obtain hsame | ⟨-, place, rest, hgone, ⟨⟨bytes, hfile⟩, hwalk⟩ | ⟨target, hlink, hwalk⟩⟩ :=
    h.walk here names
  · exact hsame
  · have hplace : t.content? place ≠ some .directory := by
      rw [hfile]
      exact nofun
    rw [follow_congr hwalk] at hfollow
    cases rest with
    | nil =>
      rw [follow_of_reached rfl] at hfollow
      cases hfollow
      exact absurd hq hplace
    | cons n rest =>
      rw [follow_of_error (walk_of_not_directory hplace n)] at hfollow
      cases hfollow
  · cases links with
    | zero =>
      rw [follow_zero_of_linked hwalk] at hfollow
      cases hfollow
    | succ links =>
      rw [follow_of_linked hwalk] at hfollow
      exact absurd hq (h.aside place target hgone hlink links rest q hfollow)

/-- A path to a directory leads to it as before. -/
theorem Aside.follow_directory (h : Aside t t' gone) {links : Nat} {here names q : List String}
    (hfollow : t.follow true links here names = .ok q) (hq : t.content? q = some .directory) :
    t'.follow true links here names = .ok q := by
  induction links generalizing here names with
  | zero =>
    have hwalk := h.walk_eq hfollow hq
    rw [follow] at hfollow ⊢
    rw [hwalk, hfollow]
  | succ links ih =>
    have hwalk := h.walk_eq hfollow hq
    obtain hreached | ⟨left, place, target, rest, hleft, hlinked, hfollow⟩ := walk_of_follow hfollow
    · exact follow_of_reached (hwalk.trans hreached) _
    · cases hleft
      rw [follow_of_linked (hwalk.trans hlinked)]
      exact ih hfollow

theorem Aside.put_file (h : Aside t t' gone) (place : List String) (name : String)
    (bytes : List UInt8) :
    Aside (t.put place name (file bytes)) (t'.put place name (file bytes)) fun q ↦
      gone q ∧ ¬ (t.content? place = some .directory ∧ place ++ [name] <+: q) := by
  have hput : ∀ q, ¬ (t.content? place = some .directory ∧ place ++ [name] <+: q) →
      (t.put place name (file bytes)).content? q = t.content? q := by
    intro q hq
    rw [content?_put, if_neg hq]
  refine ⟨⟨?_, ?_, ?_⟩, ?_⟩
  · rintro q ⟨hgone, hq⟩
    rw [hput q hq]
    exact h.closed q hgone
  · rintro q ⟨hgone, hq⟩
    rw [h.content?_put, if_neg hq]
    exact h.deleted q hgone
  · intro q hq
    rw [h.content?_put, content?_put]
    by_cases hnew : t.content? place = some .directory ∧ place ++ [name] <+: q
    · rw [if_pos hnew, if_pos hnew]
    · rw [if_neg hnew, if_neg hnew]
      exact h.kept q fun hgone ↦ hq ⟨hgone, hnew⟩
  · rintro q target ⟨hgone, hq⟩ hlink links rest r hfollow hr
    rw [hput q hq] at hlink
    -- no way to a directory is new, so the one behind the link was there before
    have hways := hasWays_of_put_file t place name bytes
    have hr' := hways.content?_directory hr
    exact h.aside q target hgone hlink links rest r (hways.follow hfollow (hr'.trans hr.symm)) hr'

/-- **What can be written can be written without garbled files.** -/
theorem Without.write_eq_ok (h : Without t t' gone) {fresh : String} {cwd : List String}
    {target : Path} {data : Payload} (hwritten : (t.write fresh cwd target data).2 = .ok ()) :
    (t'.write fresh cwd target data).2 = .ok () := by
  obtain ⟨parent, content, hcanonical, hparent, hshort, hencoded, place, hlocate, hplace, hname,
    hfree⟩ := write_eq_ok_iff.mp hwritten
  have haside := (h.toAside.put_file parent (temporaryName target fresh) []).put_file parent
    (temporaryName target fresh) content
  -- the way to the directory is the same before and after, with the deleted places and without
  obtain ⟨hcreated, hdirectory⟩ := locate_of_put_file hlocate hplace
  obtain ⟨hlocated, hbefore⟩ := locate_of_put_file hcreated hdirectory
  have hlocated' := h.toAside.follow_directory hlocated hbefore
  have hcanonical' : t'.canonicalStrict cwd target.parent = t.canonicalStrict cwd target.parent := by
    refine h.canonicalFrom_eq (k := linkLimit) (q := place) ?_
    rw [List.flatMap_nil, List.append_nil]
    exact hlocated'
  refine write_eq_ok_iff.mpr ⟨parent, content, hcanonical'.trans hcanonical,
    (h.content?_directory_iff parent).mpr hparent, hshort, hencoded, place,
    haside.follow_directory hlocate hplace, (haside.content?_directory_iff place).mpr hplace, hname,
    mt (haside.content?_directory_iff _).mp hfree⟩

end

end FeatureAtlas.FileNode
