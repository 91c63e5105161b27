import Mathlib
import FeatureAtlas.Proofs.FileTree.Removal
import FeatureAtlas.Proofs.FileTree.Writable

/-!
# A write happens as a whole or not at all

Whichever step of a write is refused, the temporary file is taken away again, and as its name was new, the
tree is the one that there was before. If no step is refused, moving the temporary file is the same as putting
the content at the target at once. Two ways lead to the directory of the target, the canonical one, on which
the temporary file is made, and the one that the system follows when the file is moved; where both lead
somewhere, they lead to the same place.
-/

namespace FeatureAtlas

/-! ## The bytes of a text -/

theorem Utf8.encodeChar_eq (c : Char) : Utf8.encodeChar c = String.utf8EncodeChar c := by
  have hbound : c.toNat < 0x110000 := by
    have hvalid := c.valid
    simp only [UInt32.isValidChar, Nat.isValidChar] at hvalid
    change c.val.toNat < 0x110000
    omega
  simp only [Utf8.encodeChar, String.utf8EncodeChar, Nat.toUInt8, Char.toNat_val]
  generalize c.toNat = n at hbound
  -- the classes are the same, and in each of them the first byte has room for what is left
  by_cases h1 : n < 0x80
  · rw [if_pos h1, if_pos (by omega)]
  · have h1' : ¬ n ≤ 127 := by omega
    by_cases h2 : n < 0x800
    · have h2' : n ≤ 2047 := by omega
      have hlead : n / 64 % 32 = n / 64 := by omega
      simp only [h1, h1', h2, h2', hlead, if_true, if_false, Nat.add_comm]
    · have h2' : ¬ n ≤ 2047 := by omega
      by_cases h3 : n < 0x10000
      · have h3' : n ≤ 65535 := by omega
        have hlead : n / 4096 % 16 = n / 4096 := by omega
        simp only [h1, h1', h2, h2', h3, h3', hlead, if_true, if_false, Nat.add_comm]
      · have h3' : ¬ n ≤ 65535 := by omega
        have hlead : n / 262144 % 8 = n / 262144 := by omega
        simp only [h1, h1', h2, h2', h3, h3', hlead, if_false, Nat.add_comm]

/-- The bytes of a text are those of its UTF-8 form. -/
theorem Utf8.encode_eq (s : String) : Utf8.encode s = s.toUTF8.data.toList := by
  rw [String.toUTF8_eq_toByteArray, ← String.utf8Encode_toList, List.utf8Encode,
    List.data_toByteArray, Utf8.encode, funext encodeChar_eq]

namespace FileNode

/-! ## The directory of the target -/

section

variable {t : FileNode} {place cwd here names q : List String} {p : Path}

/-- Where names lead somewhere, their canonical place is there. -/
theorem canonicalFrom_of_follow {strict : Bool} {links k : Nat}
    {frames : List (List String × List String)}
    (hfollow : t.follow true k here (names ++ frames.flatMap Prod.snd) = .ok q)
    (h : t.canonicalFrom strict links frames here names = .ok place) : place = q := by
  fun_induction canonicalFrom t strict links frames here names generalizing k with
  | case1 links frames here names e hwalk => cases h
  | case2 links here names reached hwalk =>
    obtain ⟨w, ⟨⟩, hw⟩ := exists_walk_of_follow hfollow hwalk
    cases h
    rw [follow_congr (walk_append_of_reached hw _)] at hfollow
    exact Except.ok.inj ((follow_of_reached rfl k).symm.trans hfollow)
  | case3 links here names reached hwalk link rest outer ih =>
    obtain ⟨w, ⟨⟩, hw⟩ := exists_walk_of_follow hfollow hwalk
    rw [follow_congr (walk_append_of_reached hw _)] at hfollow
    exact ih (k := k) hfollow h
  | case4 links frames here names reached target rest hwalk hmet =>
    simp only [if_pos hmet, reduceCtorEq] at h
  | case5 frames here names reached target rest hwalk hmet =>
    simp only [if_neg hmet, reduceCtorEq] at h
  | case6 frames here names reached target rest hwalk hmet links ih =>
    simp only [if_neg hmet] at h
    obtain ⟨w, ⟨⟩, hw⟩ := exists_walk_of_follow hfollow hwalk
    have hlinked := walk_append_of_linked hw (frames.flatMap Prod.snd)
    cases k with
    | zero =>
      rw [follow_zero_of_linked hlinked] at hfollow
      cases hfollow
    | succ k =>
      rw [follow_of_linked hlinked] at hfollow
      exact ih (k := k) hfollow h

theorem canonicalStrict_eq_of_locate (h : t.canonicalStrict cwd p = .ok place)
    (hlocate : t.locate cwd p = .ok q) : place = q := by
  refine canonicalFrom_of_follow (k := linkLimit) ?_ h
  rw [List.flatMap_nil, List.append_nil]
  exact hlocate

end

/-! ## The steps of a write -/

theorem attempt_eq_ok {refuse : WriteStep → Option FileFault} {step : WriteStep} {path : Path}
    {action : Except FileError FileNode} {t : FileNode}
    (h : attempt refuse step path action = .ok t) : action = .ok t := by
  rw [attempt] at h
  split at h
  · cases h
  · exact h

section

variable {t : FileNode} {parent cwd : List String} {target : Path}

theorem createFile_eq_ok {name : String} {created : FileNode}
    (h : t.createFile parent name = .ok created) : created = t.put parent name (file []) := by
  rw [createFile] at h
  split at h
  · cases h
  · exact (Except.ok.inj h).symm

/-- How a write can end: nothing was made, the temporary file was removed again, or it was moved. -/
theorem writeUnder_cases (refuse : WriteStep → Option FileFault) (fresh : String)
    (cwd : List String) (target : Path) (data : Payload) (t : FileNode) :
    (∃ e, t.writeUnder refuse fresh cwd target data = (t, .error e)) ∨
      ∃ parent created, t.canonicalStrict cwd target.parent = .ok parent ∧
        created = t.put parent (temporaryName target fresh) (file []) ∧
        ((∃ e, t.writeUnder refuse fresh cwd target data
            = (created.remove parent (temporaryName target fresh), .error e)) ∨
          ∃ content done, data.encoded = .ok content ∧
            (created.put parent (temporaryName target fresh) (file content)).replace parent
              (temporaryName target fresh) content cwd target = .ok done ∧
            t.writeUnder refuse fresh cwd target data = (done, .ok ())) := by
  rw [writeUnder, temporaryName]
  generalize "." ++ target.name ++ "." ++ fresh ++ ".tmp" = name
  cases t.canonicalStrict cwd target.parent with
  | error e => exact .inl ⟨_, rfl⟩
  | ok parent =>
    dsimp only
    generalize pathOf (parent ++ [name]) = temporary
    split
    · exact .inl ⟨_, rfl⟩
    · cases hcreated : attempt refuse .create temporary (t.createFile parent name) with
      | error e => exact .inl ⟨_, rfl⟩
      | ok created =>
        refine .inr ⟨parent, created, rfl, createFile_eq_ok (attempt_eq_ok hcreated), ?_⟩
        cases data.encoded with
        | error e => exact .inl ⟨_, rfl⟩
        | ok content =>
          dsimp only
          cases hwritten : attempt refuse .write temporary
              (.ok (created.put parent name (file content))) with
          | error e => exact .inl ⟨_, rfl⟩
          | ok written =>
            obtain rfl := Except.ok.inj (attempt_eq_ok hwritten)
            dsimp only
            cases hdone : attempt refuse .replace temporary
                ((created.put parent name (file content)).replace parent name content cwd target) with
            | error e => exact .inl ⟨_, rfl⟩
            | ok done => exact .inr ⟨content, done, rfl, attempt_eq_ok hdone, rfl⟩

end

/-! ## The whole write -/

/-- The file at a place has a new content, and every other place has what it had. -/
structure Replaced (t after : FileNode) (place : List String) (content : List UInt8) : Prop where
  target : after.content? place = some (.file content)
  others : ∀ q, q ≠ place → after.content? q = t.content? q

section

variable {t : FileNode} {refuse : WriteStep → Option FileFault} {fresh : String} {cwd : List String}
  {target : Path} {data : Payload}

theorem replaced_put {place : List String} {name : String} {content : List UInt8}
    (hplace : t.content? place = some .directory)
    (hfree : t.content? (place ++ [name]) ≠ some .directory) :
    Replaced t (t.put place name (file content)) (place ++ [name]) content := by
  refine ⟨?_, fun q hq ↦ ?_⟩
  · rw [content?_put, if_pos ⟨hplace, List.prefix_refl _⟩]
    simp [content?, node?_nil, FileNode.content]
  · rw [content?_put]
    split
    · next h =>
      -- nothing is below the target, neither before nor after
      obtain ⟨r, rfl⟩ := h.2
      obtain ⟨n, r, rfl⟩ := List.exists_cons_of_ne_nil fun hr : r = [] ↦
        hq (by rw [hr, List.append_nil])
      have hbefore : t.content? (place ++ [name] ++ n :: r) = none :=
        Decidable.byContradiction fun hne ↦
          hfree (content?_of_append (List.cons_ne_nil n r) hne)
      rw [hbefore, List.drop_left' (by simp)]
      rfl
    · rfl

theorem Replaced.hasWays {after : FileNode} {place : List String} {content : List UInt8}
    (h : Replaced t after place content) (hdirectory : t.content? place ≠ some .directory)
    (hlink : ∀ link, t.content? place ≠ some (.link link)) : HasWays t after := by
  intro q c hq
  by_cases hplace : q = place
  · subst hplace
    cases c with
    | file bytes => exact .inl ⟨bytes, rfl⟩
    | directory => exact absurd hq hdirectory
    | link target => exact absurd hq (hlink target)
  · exact .inr ((h.others q hplace).trans hq)

/-- A file in a directory is read by the path of the directory and its name. -/
theorem read_of_locate_parent {place : List String} {content : List UInt8}
    (hparent : t.locate cwd target.parent = .ok place)
    (hplace : t.content? place = some .directory)
    (hname : target.name ≠ ".." ∧ target.name ≠ "" ∧ ¬nameLimit < target.name.utf8ByteSize)
    (hfile : t.content? (place ++ [target.name]) = some (.file content)) :
    t.read cwd target = .ok content := by
  have hparts : target.parts ≠ [] := by
    intro hnil
    refine hname.2.1 ?_
    rw [Path.name, hnil]
    rfl
  have hstride : t.stride place target.name = .go (place ++ [target.name]) := by
    rw [stride, if_pos hplace, if_neg hname.1, if_neg hname.2.2, hfile]
  have hwalk : t.walk true place [target.name] = .ok (.reached (place ++ [target.name])) := by
    rw [walk_cons, hstride]
    rfl
  obtain ⟨k, hk⟩ := exists_follow_append hparent
  have hlocate : t.locate cwd target = .ok (place ++ [target.name]) := by
    rw [locate, ← Path.parent_append_name hparts]
    exact (hk _).trans (follow_of_reached hwalk k)
  rw [read, hlocate]
  dsimp only
  rw [content?_file.mp hfile]

/-- Moving what was put under a new name is putting it at the target at once. -/
theorem replace_put_put {parent : List String} {name : String} {content : List UInt8}
    {done : FileNode} (hkeyed : t.Keyed) (hparent : t.canonicalStrict cwd target.parent = .ok parent)
    (hnew : t.content? (parent ++ [name]) = none)
    (h : ((t.put parent name (file [])).put parent name (file content)).replace parent name content
      cwd target = .ok done) :
    t.locate cwd target.parent = .ok parent ∧ t.content? parent = some .directory ∧
      (target.name ≠ ".." ∧ target.name ≠ "" ∧ ¬nameLimit < target.name.utf8ByteSize) ∧
      t.content? (parent ++ [target.name]) ≠ some .directory ∧
      done = t.put parent target.name (file content) := by
  obtain ⟨place, hlocate, hplace, hname, hfree, rfl⟩ := replace_eq_ok_iff.mp h
  -- the directory was there before, and both ways lead to it
  obtain ⟨hlocate, hplace⟩ := locate_of_put_file hlocate hplace
  obtain ⟨hlocate, hplace⟩ := locate_of_put_file hlocate hplace
  obtain rfl := canonicalStrict_eq_of_locate hparent hlocate
  refine ⟨hlocate, hplace, hname, fun hdirectory ↦ hfree ?_, ?_⟩
  · have hbeside := not_prefix_of_content? hnew hdirectory
    rw [content?_put, if_neg fun h ↦ hbeside h.2, content?_put, if_neg fun h ↦ hbeside h.2,
      hdirectory]
  · rw [remove_put, remove_put, remove_of_new hkeyed hnew]

/-- **A write happens as a whole or not at all.** If the name of the temporary file is new, a write that
fails at any step leaves the tree as it was, and one that ends well leaves the data at the target and all
other places as they were; unless the target was a link, the path of the target then leads to the data. Bytes
are written as they are, and texts in their UTF-8 form. -/
theorem writeUnder_whole_or_not (hkeyed : t.Keyed)
    (hfresh : ∀ parent, t.canonicalStrict cwd target.parent = .ok parent →
      t.content? (parent ++ [temporaryName target fresh]) = none) :
    (∀ e, (t.writeUnder refuse fresh cwd target data).2 = .error e →
      (t.writeUnder refuse fresh cwd target data).1 = t) ∧
    ((t.writeUnder refuse fresh cwd target data).2 = .ok () → ∃ parent content,
      t.canonicalStrict cwd target.parent = .ok parent ∧ data.encoded = .ok content ∧
        Replaced t (t.writeUnder refuse fresh cwd target data).1 (parent ++ [target.name]) content ∧
        ((∀ link, t.content? (parent ++ [target.name]) ≠ some (.link link)) →
          (t.writeUnder refuse fresh cwd target data).1.read cwd target = .ok content)) ∧
    (∀ bytes, (Payload.bytes bytes).encoded = .ok bytes) ∧
    ∀ s, (Payload.text s "utf-8").encoded = .ok s.toUTF8.data.toList := by
  refine ⟨fun e he ↦ ?_, fun hok ↦ ?_, fun bytes ↦ rfl, fun s ↦ ?_⟩
  · obtain ⟨e', hend⟩ | ⟨parent, created, hparent, hcreated, ⟨e', hend⟩ | ⟨_, _, _, _, hend⟩⟩ :=
      writeUnder_cases refuse fresh cwd target data t
    · rw [hend]
    · rw [hend, hcreated, remove_put, remove_of_new hkeyed (hfresh parent hparent)]
    · rw [hend] at he
      cases he
  · obtain ⟨e, hend⟩ | ⟨parent, created, hparent, hcreated, ⟨e, hend⟩ |
      ⟨content, done, hcontent, hdone, hend⟩⟩ := writeUnder_cases refuse fresh cwd target data t
    · rw [hend] at hok
      cases hok
    · rw [hend] at hok
      cases hok
    · subst hcreated
      have hnew := hfresh parent hparent
      obtain ⟨hlocate, hplace, hname, hfree, rfl⟩ := replace_put_put hkeyed hparent hnew hdone
      rw [hend]
      have hreplaced : Replaced t _ _ content := replaced_put hplace hfree
      refine ⟨parent, content, hparent, hcontent, hreplaced, fun hlink ↦ ?_⟩
      have hsame := hreplaced.others parent (by simp)
      exact read_of_locate_parent ((hreplaced.hasWays hfree hlink).follow hlocate hsame)
        (hsame.trans hplace) hname hreplaced.target
  · rw [← Utf8.encode_eq]
    rfl

/-- A map is kept when the move is refused, and replaced when nothing is. -/
theorem writeUnder_whole_or_not_map :
    let t := directory [("docs", directory [("map.json", file [0x7b])])]
    let target : Path := ⟨"/", ["docs", "map.json"]⟩
    let data := Payload.text "\u00e9" "utf-8"
    let refuse (step : WriteStep) := if step = .replace then some FileFault.busy else none
    let failed := t.writeUnder refuse "0" [] target data
    let done := t.writeUnder (fun _ ↦ none) "0" [] target data
    t.Keyed ∧ t.canonicalStrict [] target.parent = .ok ["docs"] ∧
      t.content? (["docs"] ++ [temporaryName target "0"]) = none ∧
      ((∃ e, failed.2 = .error e) ∧ failed.1 = t) ∧
      done.2 = .ok () ∧ done.1.read [] target = .ok [0xc3, 0xa9] := by
  intro t target data refuse failed done
  have hkeyed : t.Keyed := by
    have hdocs : (directory [("map.json", file [0x7b])]).Keyed :=
      keyed_directory (by decide) (by simp [keyed_file])
    exact keyed_directory (by decide) (by simp [hdocs])
  have hparent : t.canonicalStrict [] target.parent = .ok ["docs"] := by cbv
  have hnew : t.content? (["docs"] ++ [temporaryName target "0"]) = none := by cbv
  have hfresh : ∀ parent, t.canonicalStrict [] target.parent = .ok parent →
      t.content? (parent ++ [temporaryName target "0"]) = none := by
    rintro parent h
    rw [hparent] at h
    cases h
    exact hnew
  have hfailed : (t.writeUnder refuse "0" [] target data).2
      = .error (.refused { fault := .busy, path := "/docs/.map.json.0.tmp" }) := by cbv
  have hdone : (t.writeUnder (fun _ ↦ none) "0" [] target data).2 = .ok () := by cbv
  have hfile : t.content? (["docs"] ++ [target.name]) = some (.file [0x7b]) := by cbv
  have hlink : ∀ l, t.content? (["docs"] ++ [target.name]) ≠ some (.link l) := by
    intro l h
    rw [hfile] at h
    cases h
  have hbytes : data.encoded = .ok [0xc3, 0xa9] := by cbv
  have hkept : failed.1 = t := (writeUnder_whole_or_not hkeyed hfresh).1 _ hfailed
  obtain ⟨parent, content, hparent', hcontent, -, hread⟩ :=
    (writeUnder_whole_or_not hkeyed hfresh).2.1 hdone
  rw [hparent] at hparent'
  cases hparent'
  rw [hbytes] at hcontent
  cases hcontent
  exact ⟨hkeyed, hparent, hnew, ⟨⟨_, hfailed⟩, hkept⟩, hdone, hread hlink⟩

end

end FileNode

end FeatureAtlas
