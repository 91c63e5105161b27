import FeatureAtlas.Comment.Block
import FeatureAtlas.Comment.Tag
import FeatureAtlas.Proofs.Table
import FeatureAtlas.Proofs.Text.Split
import FeatureAtlas.Proofs.Text.Trim
import Mathlib.Data.List.Infix

/-!
# What is written in a block is read back

A block is written line by line, with a star and a blank in front of each line. Two readers go over it: one
looks for the first tag of each line, the other takes off the star and keeps what is no tag and no mark of the
comment. Neither knows the lines that were written, and each must pass over those that are the other's.

A written tag is found at once, because the star in front of it is no `@`, and a text line has none. Its value
goes on to the end of the line: only blanks up to the end or a closing mark could end it before, and a value
that is trimmed and open has neither.
-/

namespace FeatureAtlas.Comment

/-! ## Lines and blocks -/

/-- What a line of a block says: text, a tag with a value, or the tag that marks an action. -/
inductive Line where
  | prose (text : String)
  | tag (name value : String)
  | marker

namespace Line

/-- The line as it is written behind the star. -/
def text : Line → String
  | prose t => t
  | tag name value => "@" ++ name ++ " " ++ value
  | marker => "@serverAction"

/-- The tag of a line and the value that it stands for. -/
def tag? : Line → Option (String × String)
  | prose _ => none
  | tag name value => some (name, if name = "serverAction" then "" else value)
  | marker => some ("serverAction", "")

/-- The text of a line that is no tag. -/
def prose? : Line → Option String
  | prose t => some t
  | _ => none

end Line

/-- A text line has no tag in it, is not blank, and is no mark of the comment itself. -/
structure IsProseLine (t : String) : Prop where
  one_line : '\n' ∉ t.toList
  no_tag : '@' ∉ t.toList
  not_blank : Text.strip t ≠ ""
  not_slash : Text.strip t ≠ "/"
  not_opening : Text.startsWith (Text.strip t) "/**" = false
  not_closing : Text.startsWith (Text.strip t) "*/" = false

/-- A tag line has a word for a name and a trimmed value that does not close the comment. -/
structure IsTagLine (name value : String) : Prop where
  named : name ≠ ""
  word : ∀ c ∈ name.toList, Text.isWord c = true
  one_line : '\n' ∉ value.toList
  valued : value ≠ ""
  trimmed : Text.Trimmed value
  unclosed : ¬closing <:+: value.toList

instance (t : String) : Decidable (IsProseLine t) :=
  decidable_of_iff
    ('\n' ∉ t.toList ∧ '@' ∉ t.toList ∧ Text.strip t ≠ "" ∧ Text.strip t ≠ "/" ∧
      Text.startsWith (Text.strip t) "/**" = false ∧ Text.startsWith (Text.strip t) "*/" = false)
    ⟨fun ⟨h₁, h₂, h₃, h₄, h₅, h₆⟩ ↦ ⟨h₁, h₂, h₃, h₄, h₅, h₆⟩,
      fun ⟨h₁, h₂, h₃, h₄, h₅, h₆⟩ ↦ ⟨h₁, h₂, h₃, h₄, h₅, h₆⟩⟩

instance (name value : String) : Decidable (IsTagLine name value) :=
  decidable_of_iff
    (name ≠ "" ∧ name.toList.all Text.isWord = true ∧ '\n' ∉ value.toList ∧ value ≠ "" ∧
      Text.Trimmed value ∧ ¬closing <:+: value.toList)
    ⟨fun ⟨h₁, h₂, h₃, h₄, h₅, h₆⟩ ↦ ⟨h₁, List.all_eq_true.mp h₂, h₃, h₄, h₅, h₆⟩,
      fun ⟨h₁, h₂, h₃, h₄, h₅, h₆⟩ ↦ ⟨h₁, List.all_eq_true.mpr h₂, h₃, h₄, h₅, h₆⟩⟩

/-- A line that can be written in a block. -/
def Line.WellFormed : Line → Prop
  | prose t => IsProseLine t
  | tag name value => IsTagLine name value
  | marker => True

instance : DecidablePred Line.WellFormed
  | .prose t => inferInstanceAs (Decidable (IsProseLine t))
  | .tag name value => inferInstanceAs (Decidable (IsTagLine name value))
  | .marker => inferInstanceAs (Decidable True)

/-- The block that is written with the given lines. -/
def blockOf (lines : List Line) : String :=
  Text.join "\n" ("/**" :: lines.map (fun l ↦ " * " ++ l.text) ++ [" */"])

theorem Line.WellFormed.one_line {l : Line} (h : l.WellFormed) : '\n' ∉ l.text.toList := by
  cases l with
  | prose t => exact IsProseLine.one_line h
  | marker => decide
  | tag name value =>
    obtain ⟨-, hword, hvalue, -, -, -⟩ := h
    have hname : '\n' ∉ name.toList := fun hmem ↦ absurd (hword _ hmem) (by decide)
    simp [Line.text, hname, hvalue]

/-- The lines of a written block are the lines that were written, behind their stars. -/
theorem splitOn_blockOf {lines : List Line} (h : ∀ l ∈ lines, l.WellFormed) :
    Text.splitOn '\n' (blockOf lines).toList
      = "/**".toList :: (lines.map fun l ↦ ' ' :: '*' :: ' ' :: l.text.toList) ++ [" */".toList] := by
  have hfree : ∀ piece ∈ "/**" :: lines.map (fun l ↦ " * " ++ l.text) ++ [" */"],
      '\n' ∉ piece.toList := by
    intro piece hpiece
    simp only [List.cons_append, List.mem_cons, List.mem_append, List.mem_map, List.not_mem_nil,
      or_false] at hpiece
    obtain rfl | ⟨l, hl, rfl⟩ | rfl := hpiece
    · decide
    · simpa using (h l hl).one_line
    · decide
  rw [blockOf, Text.splitOn_join rfl (by simp) hfree]
  simp

/-! ## Tags -/

theorem lineTag?_of_not_mem {cs : List Char} (h : '@' ∉ cs) : lineTag? cs = none := by
  induction cs with
  | nil => rfl
  | cons c cs ih =>
    rw [List.mem_cons, not_or] at h
    rw [lineTag?, if_neg (by simpa using Ne.symm h.1), ih h.2]

/-- A value that ends in no blank and has no closing mark goes on from every place in it. -/
theorem valueEnds_of_open {cs : List Char} (hne : cs ≠ [])
    (hlast : ∀ c ∈ cs.getLast?, Text.isBlank c = false) (hopen : ¬closing <:+: cs) :
    valueEnds cs = false := by
  have hsuffix : Text.trimStart cs <:+ cs := List.dropWhile_suffix _
  -- otherwise all of it is blank, its last character too
  have hmore : Text.trimStart cs ≠ [] := by
    intro hnil
    have hsplit := List.takeWhile_append_dropWhile (p := Text.isBlank) (l := cs)
    rw [← Text.trimStart, hnil, List.append_nil] at hsplit
    have hall : cs.all Text.isBlank = true := hsplit ▸ List.all_takeWhile
    have hend := hlast _ (List.getLast?_eq_some_getLast hne)
    rw [List.all_eq_true.mp hall _ (List.getLast_mem hne)] at hend
    cases hend
  have hclosing : ['*', '/'].isPrefixOf (Text.trimStart cs) = false := by
    rw [← Bool.not_eq_true, List.isPrefixOf_iff_prefix]
    exact fun hfront ↦ hopen (List.IsInfix.trans hfront.isInfix hsuffix.isInfix)
  rw [valueEnds, hclosing, Bool.or_false, List.isEmpty_eq_false_iff]
  exact hmore

theorem valueTail_of_open {cs : List Char} (hlast : ∀ c ∈ cs.getLast?, Text.isBlank c = false)
    (hopen : ¬closing <:+: cs) : valueTail cs = cs := by
  induction cs with
  | nil => rfl
  | cons c cs ih =>
    have hcs : ∀ d ∈ cs.getLast?, Text.isBlank d = false := fun d hd ↦
      hlast d (List.mem_getLast?_cons hd)
    rw [valueTail, valueEnds_of_open (List.cons_ne_nil c cs) hlast hopen, if_neg Bool.false_ne_true,
      ih hcs fun hwithin ↦ hopen (hwithin.trans (List.suffix_cons c cs).isInfix)]

theorem lineTag?_tag {name value : String} (h : IsTagLine name value) :
    lineTag? (Line.tag name value).text.toList = some (name, some value.toList) := by
  have hname : name.toList ≠ [] := mt String.toList_eq_nil_iff.mp h.named
  have hword : (name.toList ++ ' ' :: value.toList).takeWhile Text.isWord = name.toList := by
    rw [List.takeWhile_append_of_pos h.word, List.takeWhile_cons_of_neg (by decide), List.append_nil]
  have hvalue : tagValue? (' ' :: value.toList) = some value.toList := by
    obtain ⟨c, cs, hcs⟩ := List.exists_cons_of_ne_nil (mt String.toList_eq_nil_iff.mp h.valued)
    -- the first character is taken in any case, and the end is looked for behind it
    obtain ⟨hfirst, hlast⟩ := h.trimmed
    have hopen := h.unclosed
    rw [hcs] at hfirst hlast hopen ⊢
    have htrim : Text.trimStart (' ' :: c :: cs) = c :: cs := Text.trimStart_of_head? hfirst
    rw [tagValue?, htrim]
    have htail : valueTail cs = cs :=
      valueTail_of_open (fun d hd ↦ hlast d (List.mem_getLast?_cons hd))
        fun hwithin ↦ hopen (hwithin.trans (List.suffix_cons c cs).isInfix)
    dsimp only
    rw [htail]
  have hat : tagAt? (name.toList ++ ' ' :: value.toList) = some (name, some value.toList) := by
    rw [tagAt?, hword, List.drop_left]
    simp [hname, hvalue, show Text.isBlank ' ' = true from rfl]
  have htext : (Line.tag name value).text.toList = '@' :: (name.toList ++ ' ' :: value.toList) := by
    simp [Line.text]
  rw [htext, lineTag?, hat]
  rfl

/-- Reading a written line records the tag that was written there, if one was. -/
theorem recordTag_line {l : Line} (h : l.WellFormed) (t : Table String) :
    recordTag t (' ' :: '*' :: ' ' :: l.text.toList)
      = match l.tag? with
        | some entry => t.set entry.1 entry.2
        | none => t := by
  have hstar : lineTag? (' ' :: '*' :: ' ' :: l.text.toList) = lineTag? l.text.toList := rfl
  rw [recordTag, hstar]
  cases l with
  | prose text => rw [Line.text, lineTag?_of_not_mem (IsProseLine.no_tag h)]; rfl
  | marker => rfl
  | tag name value =>
    have hvalue : String.ofList (Text.trim value.toList) = value :=
      Text.strip_of_trimmed (IsTagLine.trimmed h)
    rw [lineTag?_tag h, Line.tag?]
    by_cases hmarker : name = "serverAction"
    · simp [markerTags, hmarker]
    · simp [markerTags, hmarker, hvalue]

/-- The tags of a written block are its entries, collected one by one. -/
theorem tags_blockOf {lines : List Line} (h : ∀ l ∈ lines, l.WellFormed) :
    tags (blockOf lines) = Table.ofEntries (lines.filterMap Line.tag?) := by
  -- on the lines, whatever was collected above them
  have hrun : ∀ t : Table String,
      (lines.map fun l ↦ ' ' :: '*' :: ' ' :: l.text.toList).foldl recordTag t
        = (lines.filterMap Line.tag?).foldl (fun t e ↦ t.set e.1 e.2) t := by
    induction lines with
    | nil => exact fun _ ↦ rfl
    | cons l lines ih =>
      intro t
      have hrest := ih fun m hm ↦ h m (List.mem_cons_of_mem l hm)
      rw [List.map_cons, List.foldl_cons, hrest, recordTag_line (h l List.mem_cons_self),
        List.filterMap_cons]
      cases l.tag? <;> rfl
  have hopening : ∀ t : Table String, recordTag t "/**".toList = t := fun _ ↦ rfl
  have hclosing : ∀ t : Table String, recordTag t " */".toList = t := fun _ ↦ rfl
  rw [tags, splitOn_blockOf h, List.foldl_append, List.foldl_cons, List.foldl_cons, List.foldl_nil,
    hopening, hclosing, hrun]
  rfl

/-! ## Description -/

theorem isProse_of_isProseLine {t : String} (h : IsProseLine t) : isProse t.toList = true := by
  have hstrip : (Text.strip t).toList = Text.trim t.toList := String.toList_ofList
  have hne : ∀ s : String, Text.strip t ≠ s → Text.trim t.toList ≠ s.toList := by
    rintro s hs heq
    exact hs (String.toList_inj.mp (hstrip.trans heq))
  have htag : ['@'].isPrefixOf (Text.trim t.toList) = false := by
    rw [← Bool.not_eq_true, List.isPrefixOf_iff_prefix]
    exact fun hfront ↦ h.no_tag (Text.mem_of_mem_trim (hfront.subset List.mem_cons_self))
  have hopening : ['/', '*', '*'].isPrefixOf (Text.trim t.toList) = false := by
    rw [← hstrip]
    exact h.not_opening
  have hclosing : ['*', '/'].isPrefixOf (Text.trim t.toList) = false := by
    rw [← hstrip]
    exact h.not_closing
  have hblank : (Text.trim t.toList).isEmpty = false :=
    List.isEmpty_eq_false_iff.mpr (hne "" h.not_blank)
  have hslash : (Text.trim t.toList == ['/']) = false := beq_eq_false_iff_ne.mpr (hne "/" h.not_slash)
  rw [isProse, hblank, hopening, hclosing, hslash, htag]
  rfl

/-- What starts with a tag is no text. -/
theorem isProse_tag (cs : List Char) : isProse ('@' :: cs) = false := by
  have htrim : Text.trim ('@' :: cs) = '@' :: Text.trimEnd cs := by
    rw [Text.trim, Text.trimStart, List.dropWhile_cons_of_neg (by decide), Text.trimEnd_cons rfl]
  rw [isProse, htrim]
  simp

theorem isProse_line {l : Line} (h : l.WellFormed) : isProse l.text.toList = l.prose?.isSome := by
  cases l with
  | prose t => exact isProse_of_isProseLine h
  | marker => rfl
  | tag name value =>
    have htext : (Line.tag name value).text.toList = '@' :: (name.toList ++ ' ' :: value.toList) := by
      simp [Line.text]
    rw [htext, isProse_tag]
    rfl

/-- The text lines of a written block are those that were written. -/
theorem proseLines_blockOf {lines : List Line} (h : ∀ l ∈ lines, l.WellFormed) :
    proseLines (blockOf lines) = (lines.filterMap Line.prose?).map String.toList := by
  have hrun : (lines.map fun l ↦ l.text.toList).filter isProse
      = (lines.filterMap Line.prose?).map String.toList := by
    induction lines with
    | nil => rfl
    | cons l lines ih =>
      have hrest := ih fun m hm ↦ h m (List.mem_cons_of_mem l hm)
      rw [List.map_cons, List.filter_cons, isProse_line (h l List.mem_cons_self), hrest,
        List.filterMap_cons]
      cases l <;> rfl
  have hstars : ((lines.map fun l ↦ ' ' :: '*' :: ' ' :: l.text.toList).map dropStar)
      = lines.map fun l ↦ l.text.toList := by
    rw [List.map_map]
    rfl
  have hopening : isProse (dropStar "/**".toList) = false := rfl
  have hclosing : isProse (dropStar " */".toList) = false := rfl
  rw [proseLines, splitOn_blockOf h, List.map_append, List.map_cons, hstars, List.filter_append,
    List.filter_cons_of_neg (by rw [hopening]; decide), hrun, List.map_singleton,
    List.filter_cons_of_neg (by rw [hclosing]; decide), List.filter_nil, List.append_nil]

theorem description?_blockOf {lines : List Line} (h : ∀ l ∈ lines, l.WellFormed) :
    description? (blockOf lines)
      = if lines.filterMap Line.prose? = [] then none
        else some (Text.join "\n" (lines.filterMap Line.prose?)) := by
  rw [description?, proseLines_blockOf h]
  cases lines.filterMap Line.prose? with
  | nil => rfl
  | cons t ts => simp [List.map_map, Function.comp_def]

/-! ## Both readers -/

/-- **A written block is read back.** Its tags are exactly those of its lines, each once, in the order in which
they first occur and with the value they have last; its description is its text lines, if it has any. -/
theorem blockOf_read_back {lines : List Line} (h : ∀ l ∈ lines, l.WellFormed) :
    ListsFirst ((lines.filterMap Line.tag?).map Prod.fst) ((tags (blockOf lines)).map Prod.fst) ∧
      (∀ name, (tags (blockOf lines)).lookup name
        = (lines.filterMap Line.tag?).reverse.lookup name) ∧
      description? (blockOf lines)
        = if lines.filterMap Line.prose? = [] then none
          else some (Text.join "\n" (lines.filterMap Line.prose?)) := by
  refine ⟨?_, fun name ↦ ?_, description?_blockOf h⟩
  · rw [tags_blockOf h, Table.keys_ofEntries]
    exact listsFirst_distinct _
  · rw [tags_blockOf h, Table.lookup_ofEntries_reverse]

/-- The last of two values counts at the place of the first one, an `@` in a value starts no tag, and the text
keeps its indentation. -/
theorem blockOf_read_back_repeated :
    let lines : List Line := [.prose "Saves a card.", .tag "feature" "Home", .marker,
      .prose "  * and notifies", .tag "feature" "Cards @ work"]
    (∀ l ∈ lines, l.WellFormed) ∧
      ListsFirst ["feature", "serverAction", "feature"] ((tags (blockOf lines)).map Prod.fst) ∧
      (tags (blockOf lines)).lookup "feature" = some "Cards @ work" ∧
      (tags (blockOf lines)).lookup "serverAction" = some "" ∧
      description? (blockOf lines) = some "Saves a card.\n  * and notifies" := by
  intro lines
  have hwritten : ∀ l ∈ lines, l.WellFormed := by decide +kernel
  obtain ⟨horder, hvalue, hdescription⟩ := blockOf_read_back hwritten
  exact ⟨hwritten, horder, (hvalue "feature").trans (by decide +kernel),
    (hvalue "serverAction").trans (by decide +kernel), hdescription.trans (by decide +kernel)⟩

end FeatureAtlas.Comment
