import FeatureAtlas.Declaration.ExportedType
import FeatureAtlas.Declaration.Preceding
import FeatureAtlas.Proofs.Text.Split
import FeatureAtlas.Proofs.Text.Trim

/-!
# The comment above a declaration

The block above a declaration is found by two searches from the right, one for the mark that closes a comment
and one for the `/**` in front of it. What is found always stands directly above, but for blanks, and it is the
shortest text there that opens with `/**` and ends with the closing mark.

The searches do not know of the marks in between. Where a documentation comment stands directly above, the
shortest text is such a comment. Where another comment does, its closing mark is taken for that of a
documentation comment further up, with all that stands between the two.
-/

namespace FeatureAtlas.Declaration

open Comment (opening closing)

/-- A text stands at the end of another one, but for blanks. -/
def DirectlyAbove (before text : List Char) : Prop :=
  ∃ front blanks, before = front ++ text ++ blanks ∧ ∀ c ∈ blanks, Text.isBlank c = true

/-- A documentation comment stands directly above: it closes where the text ends, and nowhere before. -/
def Documented (before : List Char) : Prop :=
  ∃ inner, DirectlyAbove before (opening ++ inner ++ closing) ∧
    ¬closing <:+: (opening ++ inner ++ closing).dropLast

/-! ## The two searches -/

/-- Behind the last closing mark there are only blanks. -/
theorem lastIndexOf?_closing (front : List Char) {blanks : List Char}
    (hblanks : ∀ c ∈ blanks, Text.isBlank c = true) :
    Text.lastIndexOf? closing (front ++ closing ++ blanks) = some front.length := by
  refine (Text.lastIndexOf?_eq_some_iff (by decide)).mpr
    ⟨front, blanks, List.append_assoc _ _ _, rfl, fun hin ↦ ?_⟩
  -- behind the mark's first character only its second one and blanks are left
  have hstar : '*' ∈ '/' :: blanks := hin.subset List.mem_cons_self
  rcases List.mem_cons.mp hstar with hslash | hblank
  · exact absurd hslash (by decide)
  · exact absurd (hblanks '*' hblank) (by decide)

theorem trimEnd_closing (front : List Char) {blanks : List Char}
    (hblanks : ∀ c ∈ blanks, Text.isBlank c = true) :
    Text.trimEnd (front ++ closing ++ blanks) = front ++ closing := by
  refine Text.trimEnd_append (fun c hc ↦ ?_) hblanks
  have hlast : (front ++ closing).getLast? = some '/' := by simp [closing]
  rw [hlast] at hc
  obtain rfl := Option.some.inj hc
  decide

theorem blockBefore?_closing (front : List Char) {blanks : List Char}
    (hblanks : ∀ c ∈ blanks, Text.isBlank c = true) :
    blockBefore? (front ++ closing ++ blanks)
      = (Text.lastIndexOf? opening front).map fun start ↦ (front ++ closing).drop start := by
  have hends : closing.isSuffixOf (front ++ closing) = true :=
    List.isSuffixOf_iff_suffix.mpr (List.suffix_append front closing)
  have htake : (front ++ closing ++ blanks).take (front.length + 2) = front ++ closing :=
    List.take_left' (by simp [closing])
  have hfront : (front ++ closing ++ blanks).take front.length = front := by
    rw [List.append_assoc, List.take_left]
  rw [blockBefore?, trimEnd_closing front hblanks, if_pos hends, lastIndexOf?_closing front hblanks]
  simp only [Option.bind_eq_bind, Option.bind_some, htake, hfront, Option.pure_def]
  cases Text.lastIndexOf? opening front <;> rfl

/-- A block is only found where the text ends with a closing mark. -/
theorem exists_of_blockBefore? {before block : List Char} (h : blockBefore? before = some block) :
    ∃ front blanks, before = front ++ closing ++ blanks ∧ ∀ c ∈ blanks, Text.isBlank c = true := by
  obtain ⟨blanks, hbefore, hblanks⟩ := Text.exists_trimEnd_append before
  rw [blockBefore?] at h
  by_cases hends : closing.isSuffixOf (Text.trimEnd before) = true
  · obtain ⟨front, hfront⟩ := List.isSuffixOf_iff_suffix.mp hends
    exact ⟨front, blanks, by rw [hfront]; exact hbefore, hblanks⟩
  · rw [if_neg hends] at h
    cases h

/-- **The block that is found**: it stands directly above, from the last `/**` in front of the closing mark
on. -/
theorem blockBefore?_eq_some_iff {before block : List Char} :
    blockBefore? before = some block ↔
      ∃ inner, block = opening ++ inner ++ closing ∧ DirectlyAbove before block ∧
        ¬opening <:+: (opening ++ inner).tail := by
  constructor
  · intro h
    obtain ⟨front, blanks, rfl, hblanks⟩ := exists_of_blockBefore? h
    rw [blockBefore?_closing front hblanks] at h
    obtain ⟨start, hstart, rfl⟩ := Option.map_eq_some_iff.mp h
    obtain ⟨above, inner, rfl, rfl, hlast⟩ := (Text.lastIndexOf?_eq_some_iff (by decide)).mp hstart
    have hblock : (above ++ (opening ++ inner) ++ closing).drop above.length
        = opening ++ inner ++ closing := by
      rw [List.append_assoc, List.drop_left]
    rw [hblock]
    exact ⟨inner, rfl, ⟨above, blanks, by simp, hblanks⟩, hlast⟩
  · rintro ⟨inner, rfl, ⟨above, blanks, rfl, hblanks⟩, hlast⟩
    have hstart : Text.lastIndexOf? opening (above ++ (opening ++ inner)) = some above.length :=
      (Text.lastIndexOf?_eq_some_iff (by decide)).mpr ⟨above, inner, rfl, rfl, hlast⟩
    have hbefore : above ++ (opening ++ inner ++ closing) ++ blanks
        = above ++ (opening ++ inner) ++ closing ++ blanks := by simp
    rw [hbefore, blockBefore?_closing _ hblanks, hstart, Option.map_some, List.append_assoc,
      List.drop_left]

/-- There is a block wherever some `/**` stands in front of a closing mark directly above. -/
theorem exists_blockBefore? {before inner : List Char}
    (h : DirectlyAbove before (opening ++ inner ++ closing)) :
    ∃ block, blockBefore? before = some block := by
  obtain ⟨above, blanks, rfl, hblanks⟩ := h
  have hbefore : above ++ (opening ++ inner ++ closing) ++ blanks
      = above ++ opening ++ inner ++ closing ++ blanks := by simp
  rw [hbefore, blockBefore?_closing _ hblanks]
  cases hstart : Text.lastIndexOf? opening (above ++ opening ++ inner) with
  | some start => exact ⟨_, rfl⟩
  | none =>
    exact absurd ⟨above, inner, rfl⟩ ((Text.lastIndexOf?_eq_none_iff (by decide)).mp hstart)

/-! ## Documentation comments -/

/-- The block is the shortest: any text directly above that opens and closes like it ends in it. -/
theorem suffix_of_directlyAbove {before block inner : List Char}
    (h : blockBefore? before = some block) (habove : DirectlyAbove before (opening ++ inner ++ closing)) :
    block <:+ opening ++ inner ++ closing := by
  obtain ⟨found, rfl, ⟨front, blanks, hfront, hblanks⟩, hlast⟩ := blockBefore?_eq_some_iff.mp h
  obtain ⟨front', blanks', hfront', hblanks'⟩ := habove
  have hsame : front ++ (opening ++ found) ++ closing = front' ++ (opening ++ inner) ++ closing := calc
    _ = Text.trimEnd before := by
      rw [hfront, ← List.append_assoc front (opening ++ found), trimEnd_closing _ hblanks]
    _ = _ := by
      rw [hfront', ← List.append_assoc front' (opening ++ inner), trimEnd_closing _ hblanks']
  rcases List.append_eq_append_iff.mp (List.append_cancel_right hsame) with
    ⟨more, -, hmore⟩ | ⟨more, -, hmore⟩
  · -- the other text would open further on, but behind the block's first character nothing does
    cases more with
    | nil => exact ⟨[], congrArg (· ++ closing) hmore⟩
    | cons c more =>
      refine absurd ⟨more, inner, ?_⟩ hlast
      rw [hmore, List.cons_append, List.tail_cons, List.append_assoc]
  · exact ⟨more, by rw [hmore, List.append_assoc more]⟩

/-- The block that is found closes only once exactly if a documentation comment stands directly above. -/
theorem closes_once_iff_documented {before block : List Char} (h : blockBefore? before = some block) :
    ¬closing <:+: block.dropLast ↔ Documented before := by
  obtain ⟨inner, rfl, habove, -⟩ := blockBefore?_eq_some_iff.mp h
  constructor
  · exact fun honce ↦ ⟨inner, habove, honce⟩
  · rintro ⟨inner', habove', honce⟩ hin
    obtain ⟨more, hmore⟩ := suffix_of_directlyAbove h habove'
    have hne : opening ++ inner ++ closing ≠ [] := by simp [opening]
    rw [← hmore, List.dropLast_append_of_ne_nil hne] at honce
    exact honce (List.IsInfix.trans hin (List.suffix_append _ _).isInfix)

theorem preceding_fst (source : String) (index : Nat) (declaration : String) :
    (preceding source index declaration).1
      = (blockBefore? (source.toList.take index)).map String.ofList := by
  have hbefore : textBefore source.toList index = source.toList.take index := by
    rw [textBefore, if_neg (by omega), Int.toNat_natCast]
  rw [preceding, hbefore]
  cases blockBefore? (source.toList.take index) <;> rfl

/-- **The documentation above a declaration is one comment exactly if one stands there.** For every text and
offset: a block that is returned stands directly above the offset, opens with `/**` and ends with the closing
mark; it has no other closing mark exactly if a documentation comment stands directly above; and then a block is
returned. -/
theorem preceding_closes_once_iff (source : String) (index : Nat) (declaration : String) :
    let before := source.toList.take index
    (∀ doc, (preceding source index declaration).1 = some doc →
      DirectlyAbove before doc.toList ∧ opening <+: doc.toList ∧ closing <:+ doc.toList ∧
        (¬closing <:+: doc.toList.dropLast ↔ Documented before)) ∧
      (Documented before → ∃ doc, (preceding source index declaration).1 = some doc) := by
  intro before
  rw [preceding_fst]
  refine ⟨fun doc hdoc ↦ ?_, ?_⟩
  · obtain ⟨block, hblock, rfl⟩ := Option.map_eq_some_iff.mp hdoc
    rw [String.toList_ofList]
    obtain ⟨inner, hinner, habove, -⟩ := blockBefore?_eq_some_iff.mp hblock
    refine ⟨habove, ?_, ?_, closes_once_iff_documented hblock⟩
    · rw [hinner, List.append_assoc]
      exact List.prefix_append _ _
    · rw [hinner]
      exact List.suffix_append _ _
  · rintro ⟨inner, habove, -⟩
    obtain ⟨block, hblock⟩ := exists_blockBefore? habove
    exact ⟨String.ofList block, by rw [hblock]; rfl⟩

/-- Of two documentation comments in a row, the second one is the documentation. -/
theorem preceding_closes_once_second :
    let source := "/** First. */\n/** Second. */\n\nexport type T = string;"
    let declaration := "export type T = string;"
    let before := source.toList.take 30
    Documented before ∧
      (preceding source (30 : Nat) declaration).1 = some "/** Second. */" ∧
      DirectlyAbove before "/** Second. */".toList ∧
      ¬closing <:+: "/** Second. */".toList.dropLast := by
  intro source declaration before
  have hdoc : (preceding source (30 : Nat) declaration).1 = some "/** Second. */" := by decide +kernel
  have honce : ¬closing <:+: "/** Second. */".toList.dropLast := by decide +kernel
  obtain ⟨habove, -, -, hiff⟩ := (preceding_closes_once_iff source 30 declaration).1 _ hdoc
  exact ⟨hiff.mp honce, hdoc, habove, honce⟩

/-- Code and a second comment, taken for the end of a documentation comment. -/
def docThenCode : String :=
  "/** Doc. */\nconst x = 1;\n/* plain */\nexport type T = string;\n"

/-- The closing mark of a plain comment is taken for that of the documentation comment further up, so that the
code between the two describes the type. -/
theorem code_taken_for_documentation :
    let before := docThenCode.toList.take 37
    let block := "/** Doc. */\nconst x = 1;\n/* plain */"
    preceding docThenCode (37 : Nat) "export type T = string;"
        = (some block, block ++ "\nexport type T = string;") ∧
      DirectlyAbove before block.toList ∧ closing <:+: block.toList.dropLast ∧ ¬Documented before ∧
      (exportedTypes docThenCode).map (fun item ↦ (item.name, item.description))
        = [("T", some "const x = 1;\n/* plain */")] := by
  intro before block
  have hblock : blockBefore? before = some block.toList := by decide +kernel
  have hin : closing <:+: block.toList.dropLast := by decide +kernel
  obtain ⟨-, -, habove, -⟩ := blockBefore?_eq_some_iff.mp hblock
  refine ⟨by decide +kernel, habove, hin, fun hdocumented ↦ ?_, by decide +kernel⟩
  exact (closes_once_iff_documented hblock).mpr hdocumented hin

end FeatureAtlas.Declaration
