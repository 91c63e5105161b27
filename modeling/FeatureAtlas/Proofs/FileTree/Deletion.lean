import FeatureAtlas.FileTree.Basic
import FeatureAtlas.Proofs.FileTree.Follow

/-!
# Deleting files that are no text

A file whose bytes are no text is *garbled*, and so is a link that leads to one. A tree without some of its
garbled files answers every question about texts and directories as before: a path that leads through one of
them leads to a garbled file, or to an error, and neither is a text or a directory. What does change is which
error there is.
-/

namespace FeatureAtlas.FileNode

/-- The place has a file whose bytes are no text. -/
def Garbled (t : FileNode) (place : List String) : Prop :=
  ∃ bytes e, t.content? place = some (.file bytes) ∧ Utf8.decode bytes = .error e

/-- The place has a garbled file or a link that leads to one. -/
inductive LeadsToGarbled (t : FileNode) (place : List String) : Prop where
  | file (h : t.Garbled place)
  | link (target : String) (hlink : t.content? place = some (.link target)) (links : Nat)
      (q : List String) (hfollow : t.follow true links (linkBase place (Path.ofString target))
        (Path.ofString target).parts = .ok q) (h : t.Garbled q)

/-- The second tree is the first one without some places, none of which is a directory. -/
structure Fewer (t t' : FileNode) (gone : List String → Prop) : Prop where
  closed : ∀ place, gone place → t.content? place ≠ some .directory
  deleted : ∀ place, gone place → t'.content? place = none
  kept : ∀ place, ¬ gone place → t'.content? place = t.content? place

/-- The second tree is the first one without some places, each of which leads to a garbled file. -/
structure Without (t t' : FileNode) (gone : List String → Prop) : Prop extends Fewer t t' gone where
  garbled : ∀ place, gone place → t.LeadsToGarbled place

theorem Garbled.ne_directory {t : FileNode} {place : List String} (h : t.Garbled place) :
    t.content? place ≠ some .directory := by
  obtain ⟨bytes, e, hcontent, -⟩ := h
  rw [hcontent]
  exact nofun

theorem LeadsToGarbled.ne_directory {t : FileNode} {place : List String}
    (h : t.LeadsToGarbled place) : t.content? place ≠ some .directory := by
  cases h with
  | file h => exact h.ne_directory
  | link target hlink =>
    rw [hlink]
    exact nofun

section

variable {t t' : FileNode} {gone : List String → Prop}

theorem Fewer.content?_directory_iff (h : Fewer t t' gone) (place : List String) :
    t'.content? place = some .directory ↔ t.content? place = some .directory := by
  by_cases hgone : gone place
  · have hnone := h.deleted place hgone
    rw [hnone]
    exact iff_of_false nofun (h.closed place hgone)
  · rw [h.kept place hgone]

/-! ## Following paths -/

/-- A step is as before, unless it leads to a deleted place. -/
theorem Fewer.stride (h : Fewer t t' gone) (here : List String) (n : String) :
    t'.stride here n = t.stride here n ∨
      t'.stride here n = .stop .notFound ∧ gone (here ++ [n]) ∧
        ((∃ bytes, t.content? (here ++ [n]) = some (.file bytes)) ∧
            t.stride here n = .go (here ++ [n]) ∨
          ∃ target, t.content? (here ++ [n]) = some (.link target) ∧
            t.stride here n = .jump (here ++ [n]) (Path.ofString target)) := by
  have hhere := h.content?_directory_iff here
  by_cases hdirectory : t.content? here = some .directory
  · by_cases hgone : gone (here ++ [n])
    · by_cases hup : n = ".."
      · refine .inl ?_
        rw [FileNode.stride, FileNode.stride, if_pos hdirectory, if_pos (hhere.mpr hdirectory),
          if_pos hup, if_pos hup]
      · by_cases hlong : nameLimit < n.utf8ByteSize
        · refine .inl ?_
          rw [FileNode.stride, FileNode.stride, if_pos hdirectory, if_pos (hhere.mpr hdirectory),
            if_neg hup, if_neg hup, if_pos hlong, if_pos hlong]
        · have hstop : t'.stride here n = .stop .notFound := by
            rw [FileNode.stride, if_pos (hhere.mpr hdirectory), if_neg hup, if_neg hlong,
              h.deleted _ hgone]
          rw [hstop, FileNode.stride, if_pos hdirectory, if_neg hup, if_neg hlong]
          cases hcontent : t.content? (here ++ [n]) with
          | none => exact .inl rfl
          | some c =>
            cases c with
            | link target => exact .inr ⟨rfl, hgone, .inr ⟨target, rfl, rfl⟩⟩
            | file bytes => exact .inr ⟨rfl, hgone, .inl ⟨⟨bytes, rfl⟩, rfl⟩⟩
            | directory => exact absurd hcontent (h.closed _ hgone)
    · refine .inl ?_
      rw [FileNode.stride, FileNode.stride, if_pos hdirectory, if_pos (hhere.mpr hdirectory),
        h.kept _ hgone]
  · refine .inl ?_
    rw [FileNode.stride, FileNode.stride, if_neg hdirectory, if_neg (mt hhere.mp hdirectory)]

/-- A walk is as before, unless it comes to a deleted place. -/
theorem Fewer.walk (h : Fewer t t' gone) (here names : List String) :
    t'.walk true here names = t.walk true here names ∨
      t'.walk true here names = .error .notFound ∧ ∃ place rest, gone place ∧
        ((∃ bytes, t.content? place = some (.file bytes)) ∧
            t.walk true here names = t.walk true place rest ∨
          ∃ target, t.content? place = some (.link target) ∧
            t.walk true here names = .ok (.linked place (Path.ofString target) rest)) := by
  induction names generalizing here with
  | nil => exact .inl rfl
  | cons n names ih =>
    rw [walk_cons, walk_cons]
    obtain hsame | ⟨hstop, hgone, ⟨hfile, hgo⟩ | ⟨target, hlink, hjump⟩⟩ := h.stride here n
    · rw [hsame]
      cases t.stride here n with
      | stop fault => exact .inl rfl
      | go place => exact ih place
      | jump place target => exact .inl rfl
    · rw [hstop, hgo]
      exact .inr ⟨rfl, here ++ [n], names, hgone, .inl ⟨hfile, rfl⟩⟩
    · rw [hstop, hjump]
      exact .inr ⟨rfl, here ++ [n], names, hgone, .inr ⟨target, hlink, rfl⟩⟩

/-- What following a path can come to behind a garbled file. -/
inductive Spoiled (t : FileNode) : Except FileFault (List String) → Prop where
  | notDirectory : Spoiled t (.error .notDirectory)
  | tooManyLinks : Spoiled t (.error .tooManyLinks)
  | garbled {place : List String} (h : t.Garbled place) : Spoiled t (.ok place)

theorem Garbled.spoiled {place : List String} (h : t.Garbled place) (links : Nat)
    (names : List String) : Spoiled t (t.follow true links place names) := by
  cases names with
  | nil =>
    rw [follow_of_reached rfl]
    exact .garbled h
  | cons n names =>
    rw [follow_of_error (walk_of_not_directory h.ne_directory n)]
    exact .notDirectory

/-- Behind a link to a garbled file there is nothing else. -/
theorem spoiled_of_linked {here names rest : List String} {place q : List String} {target : Path}
    {links : Nat} (hwalk : t.walk true here names = .ok (.linked place target rest))
    (hfollow : t.follow true links (linkBase place target) target.parts = .ok q) (h : t.Garbled q)
    (links' : Nat) : Spoiled t (t.follow true links' here names) := by
  cases links' with
  | zero =>
    rw [follow_zero_of_linked hwalk]
    exact .tooManyLinks
  | succ left =>
    rw [follow_of_linked hwalk]
    obtain hmany | ⟨k, hk⟩ := follow_append hfollow left rest
    · rw [hmany]
      exact .tooManyLinks
    · rw [hk]
      exact h.spoiled k rest

/-- A path that comes to a deleted place is spoiled. -/
theorem Without.spoiled (h : Without t t' gone) {here names place rest : List String}
    (hgone : gone place)
    (hmet : (∃ bytes, t.content? place = some (.file bytes)) ∧
        t.walk true here names = t.walk true place rest ∨
      ∃ target, t.content? place = some (.link target) ∧
        t.walk true here names = .ok (.linked place (Path.ofString target) rest)) (links : Nat) :
    Spoiled t (t.follow true links here names) := by
  obtain ⟨⟨bytes, hcontent⟩, hwalk⟩ | ⟨target, hlink, hwalk⟩ := hmet
  · rw [follow_congr hwalk]
    cases h.garbled place hgone with
    | file hfile => exact hfile.spoiled links rest
    | link target hlink =>
      rw [hlink] at hcontent
      cases hcontent
  · cases h.garbled place hgone with
    | file hfile =>
      obtain ⟨bytes, e, hcontent, -⟩ := hfile
      rw [hlink] at hcontent
      cases hcontent
    | link target' hlink' links' q hfollow hq =>
      rw [hlink] at hlink'
      cases hlink'
      exact spoiled_of_linked hwalk hfollow hq links

/-- **A path is followed as before, unless it comes to a deleted place**; then it leads nowhere, and before it
led to a garbled file or to an error. -/
theorem Without.follow (h : Without t t' gone) (links : Nat) (here names : List String) :
    t'.follow true links here names = t.follow true links here names ∨
      t'.follow true links here names = .error .notFound ∧
        Spoiled t (t.follow true links here names) := by
  induction links generalizing here names with
  | zero =>
    obtain hsame | ⟨hnone, place, rest, hgone, hmet⟩ := h.walk here names
    · exact .inl (by rw [FileNode.follow, FileNode.follow, hsame])
    · exact .inr ⟨follow_of_error hnone 0, h.spoiled hgone hmet 0⟩
  | succ links ih =>
    obtain hsame | ⟨hnone, place, rest, hgone, hmet⟩ := h.walk here names
    · cases hwalk : t.walk true here names with
      | error fault =>
        rw [follow_of_error hwalk, follow_of_error (hsame.trans hwalk)]
        exact .inl rfl
      | ok walk =>
        cases walk with
        | reached place =>
          rw [follow_of_reached hwalk, follow_of_reached (hsame.trans hwalk)]
          exact .inl rfl
        | linked place target rest =>
          rw [follow_of_linked hwalk, follow_of_linked (hsame.trans hwalk)]
          exact ih _ _
    · exact .inr ⟨follow_of_error hnone _, h.spoiled hgone hmet _⟩

theorem Without.locate (h : Without t t' gone) (cwd : List String) (p : Path) :
    t'.locate cwd p = t.locate cwd p ∨
      t'.locate cwd p = .error .notFound ∧ Spoiled t (t.locate cwd p) :=
  h.follow linkLimit _ p.parts

/-! ## Texts and directories -/

theorem read_eq_content? (t : FileNode) (cwd : List String) (p : Path) :
    t.read cwd p = match t.locate cwd p with
      | .error fault => .error { fault, path := p.toString }
      | .ok place =>
        match t.content? place with
        | some (.file content) => .ok content
        | some .directory => .error { fault := .isDirectory, path := p.toString }
        | _ => .error { fault := .notFound, path := p.toString } := by
  rw [read]
  cases t.locate cwd p with
  | error fault => rfl
  | ok place =>
    dsimp only
    rw [content?]
    cases t.node? place with
    | none => rfl
    | some node => cases node <;> rfl

/-- A path is a text exactly if it leads to a file that writes it. -/
theorem readRawText_eq_ok_iff {cwd : List String} {p : Path} {s : String} :
    t.readRawText cwd p = .ok s ↔ ∃ place bytes, t.locate cwd p = .ok place ∧
      t.content? place = some (.file bytes) ∧ Utf8.decode bytes = .ok s := by
  rw [readRawText, read_eq_content?]
  cases hlocate : t.locate cwd p with
  | error fault => simp
  | ok place =>
    cases hcontent : t.content? place with
    | none => simp [hcontent]
    | some c =>
      cases c with
      | link target => simp [hcontent]
      | directory => simp [hcontent]
      | file bytes => cases hdecode : Utf8.decode bytes <;> simp [hcontent, hdecode]

/-- A path is no text for its bytes exactly if it leads to a garbled file. -/
theorem readRawText_notText_iff {cwd : List String} {p : Path} :
    (∃ e, t.readRawText cwd p = .error (.notText e)) ↔
      ∃ place, t.locate cwd p = .ok place ∧ t.Garbled place := by
  rw [readRawText, read_eq_content?]
  cases hlocate : t.locate cwd p with
  | error fault => simp
  | ok place =>
    simp only [Except.ok.injEq, exists_eq_left', Garbled]
    cases hcontent : t.content? place with
    | none => simp
    | some c =>
      cases c with
      | link target => simp
      | directory => simp
      | file bytes => cases hdecode : Utf8.decode bytes <;> simp [hdecode]

/-- A path is a directory exactly if it leads to one. -/
theorem isDirectory_iff {cwd : List String} {p : Path} :
    t.isDirectory cwd p = true ↔
      ∃ place, t.locate cwd p = .ok place ∧ t.content? place = some .directory := by
  rw [isDirectory, find?]
  cases t.locate cwd p with
  | error fault => simp [Except.toOption]
  | ok place =>
    simp only [Except.toOption, Option.bind_eq_bind, Option.bind_some, Except.ok.injEq,
      exists_eq_left', content?]
    cases t.node? place with
    | none => simp
    | some node => cases node <;> simp [entries?, content]

/-- **Deleting garbled files takes no text away, and adds none.** -/
theorem Without.readRawText_eq_ok_iff (h : Without t t' gone) {cwd : List String} {p : Path}
    {s : String} : t'.readRawText cwd p = .ok s ↔ t.readRawText cwd p = .ok s := by
  rw [FileNode.readRawText_eq_ok_iff, FileNode.readRawText_eq_ok_iff]
  constructor
  · rintro ⟨place, bytes, hlocate, hcontent, hdecode⟩
    have hkept : ¬ gone place := by
      intro hgone
      rw [h.deleted place hgone] at hcontent
      cases hcontent
    refine ⟨place, bytes, ?_, (h.kept place hkept).symm.trans hcontent, hdecode⟩
    obtain hsame | ⟨hnone, -⟩ := h.locate cwd p
    · exact hsame.symm.trans hlocate
    · rw [hnone] at hlocate
      cases hlocate
  · rintro ⟨place, bytes, hlocate, hcontent, hdecode⟩
    have htext : ¬ t.Garbled place := by
      rintro ⟨bytes', e, hcontent', he⟩
      rw [hcontent] at hcontent'
      cases hcontent'
      rw [hdecode] at he
      cases he
    have hkept : ¬ gone place := by
      intro hgone
      cases h.garbled place hgone with
      | file hfile => exact htext hfile
      | link target hlink =>
        rw [hlink] at hcontent
        cases hcontent
    refine ⟨place, bytes, ?_, (h.kept place hkept).trans hcontent, hdecode⟩
    obtain hsame | ⟨-, hspoiled⟩ := h.locate cwd p
    · exact hsame.trans hlocate
    · rw [hlocate] at hspoiled
      cases hspoiled with
      | garbled hq => exact absurd hq htext

/-- A path that is no text for another reason than its bytes stays so. -/
theorem Without.read_or (h : Without t t' gone) (cwd : List String) (p : Path) :
    (t.present cwd p = .ok true ∧ ∃ e, t.readRawText cwd p = .error (.notText e)) ∨
      (t.present cwd p = .ok false ∧ t'.present cwd p = .ok false) ∨
      (t'.present cwd p = t.present cwd p ∧ t'.readRawText cwd p = t.readRawText cwd p) := by
  have hgarbled : ∀ place, t.locate cwd p = .ok place → t.Garbled place →
      t.present cwd p = .ok true ∧ ∃ e, t.readRawText cwd p = .error (.notText e) := by
    intro place hlocate hplace
    refine ⟨?_, readRawText_notText_iff.mpr ⟨place, hlocate, hplace⟩⟩
    rw [present, hlocate]
  obtain hsame | ⟨hnone, hspoiled⟩ := h.locate cwd p
  · cases hlocate : t.locate cwd p with
    | error fault =>
      refine .inr (.inr ?_)
      rw [hlocate] at hsame
      rw [present, present, readRawText, readRawText, read_eq_content?, read_eq_content?, hlocate,
        hsame]
      exact ⟨rfl, rfl⟩
    | ok place =>
      by_cases hplace : t.Garbled place
      · exact .inl (hgarbled place hlocate hplace)
      · refine .inr (.inr ?_)
        rw [hlocate] at hsame
        rw [present, present, readRawText, readRawText, read_eq_content?, read_eq_content?, hlocate,
          hsame]
        by_cases hgone : gone place
        · -- a link is no file, and neither is what is not there
          cases h.garbled place hgone with
          | file hfile => exact absurd hfile hplace
          | link target hlink => simp only [h.deleted place hgone, hlink, true_and]
        · simp only [h.kept place hgone, true_and]
  · rw [present, present, hnone]
    generalize hlocate : t.locate cwd p = located at hspoiled
    cases hspoiled with
    | notDirectory => exact .inr (.inl ⟨rfl, rfl⟩)
    | tooManyLinks => exact .inr (.inl ⟨rfl, rfl⟩)
    | @garbled place hplace => exact .inl ⟨rfl, (hgarbled place hlocate hplace).2⟩

theorem Without.isDirectory_eq (h : Without t t' gone) (cwd : List String) (p : Path) :
    t'.isDirectory cwd p = t.isDirectory cwd p := by
  rw [Bool.eq_iff_iff, isDirectory_iff, isDirectory_iff]
  simp only [h.content?_directory_iff]
  obtain hsame | ⟨hnone, hspoiled⟩ := h.locate cwd p
  · rw [hsame]
  · refine iff_of_false ?_ ?_
    · rintro ⟨place, hplace, -⟩
      rw [hnone] at hplace
      cases hplace
    · rintro ⟨place, hplace, hdirectory⟩
      rw [hplace] at hspoiled
      cases hspoiled with
      | garbled hq => exact hq.ne_directory hdirectory

end

end FeatureAtlas.FileNode
