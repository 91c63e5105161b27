import FeatureAtlas.Declaration.Utility
import FeatureAtlas.Proofs.Comment.Header
import FeatureAtlas.Proofs.Declaration.Member

/-!
# Parameters between commas

The parameters of a function are taken from the pieces between all commas, like the members of an enum. The
first piece of a parameter always has its name, and its type goes up to the first comma, also where that stands
inside of brackets. So a parameter is read as it is written exactly if its type has neither a comma nor a line
break in it. With the members this says when what is separated by commas is read one by one.
-/

namespace FeatureAtlas.Declaration

open Text (isBlank isWord splitOn trim trimStart trimEnd)

/-! ## The grammar -/

/-- A type ascription. -/
structure Ascription where
  optional : Bool
  beforeColon : List Char
  afterColon : List Char
  type : String
  blank_beforeColon : Blank beforeColon
  blank_afterColon : Blank afterColon
  ne_empty : type ≠ ""
  trimmed : Text.Trimmed type
  nested : IsNested typeBrackets false type.toList

/-- How an ascription is written in front of its type. -/
def Ascription.mark (a : Ascription) : List Char :=
  (if a.optional then ['?'] else []) ++ (a.beforeColon ++ ':' :: a.afterColon)

/-- A parameter of a function with the blanks around it. -/
structure WrittenParameter where
  before : List Char
  name : List Char
  ascription : Option Ascription
  after : List Char
  blank_before : Blank before
  isName : IsName name
  blank_after : Blank after

namespace WrittenParameter

/-- How the ascription is written, if there is one. -/
def annotated (p : WrittenParameter) : List Char := p.ascription.elim [] fun a ↦ a.mark ++ a.type.toList

/-- What follows the name. -/
def tail (p : WrittenParameter) : List Char := p.annotated ++ p.after

/-- How a parameter is written. -/
def text (p : WrittenParameter) : List Char := p.before ++ (p.name ++ p.tail)

/-- The type of a parameter; without an ascription it is unknown. -/
def type (p : WrittenParameter) : String := p.ascription.elim "unknown" Ascription.type

/-- A parameter as it is listed. -/
def entry (p : WrittenParameter) : Parameter := ⟨String.ofList p.name, p.type⟩

/-- Neither a comma nor a line break stands in the type. -/
def Short (p : WrittenParameter) : Prop :=
  ∀ a ∈ p.ascription, ',' ∉ a.type.toList ∧ '\n' ∉ a.type.toList

end WrittenParameter

/-- Parameters between commas; another comma may stand behind the last one. -/
structure ParameterList where
  params : List WrittenParameter
  closing : Option (List Char)
  blank_closing : ∀ g ∈ closing, Blank g

/-- How parameters are written between the parentheses of a function. -/
def ParameterList.text (l : ParameterList) : String :=
  String.ofList ([','].intercalate (l.params.map WrittenParameter.text ++ l.closing.toList))

/-! ## What is read of parameters -/

/-- The word at the front is what a parameter is read from. -/
theorem parameter?_eq_none_iff {piece : List Char} : parameter? piece = none ↔ frontWord piece = [] := by
  rw [← firstWord?_eq_none_iff, parameter?, Option.or_eq_none_iff, firstWord?, Option.map_eq_none_iff,
    Option.map_eq_none_iff]
  refine and_iff_right_of_imp fun h ↦ ?_
  rw [typedParameter?, h]
  rfl

/-- What a parameter is read as, if there is a type. -/
theorem typedParameter?_eq_some {cs : List Char} {q : Parameter} (h : typedParameter? cs = some q) :
    ∃ rest type, word? cs = some (q.name, rest) ∧ type <:+ cs ∧ '\n' ∉ type ∧
      q.type = String.ofList (trim type) := by
  simp only [typedParameter?, Option.bind_eq_bind, Option.bind_eq_some_iff] at h
  obtain ⟨⟨name, rest⟩, hword, behind, hcolon, hrest⟩ := h
  split at hrest
  · cases hrest
  · next hline =>
    rw [Bool.or_eq_true, not_or] at hline
    obtain rfl := Option.some.inj hrest
    refine ⟨rest, trimStart behind, hword, ?_, by simpa using hline.2, rfl⟩
    -- every step leaves a suffix of what it is given
    have hname : rest <:+ cs := by
      rw [word?] at hword
      split at hword
      · cases hword
      · exact (Prod.mk.inj (Option.some.inj hword)).2 ▸ List.drop_suffix _ _
    have hmark : (text? "?" rest).getD rest <:+ rest := by
      cases hopt : text? "?" rest with
      | none => exact List.suffix_rfl
      | some other => exact ⟨_, (Text.after?_eq_some_iff.mp hopt).symm⟩
    have hbehind : behind <:+ trimStart ((text? "?" rest).getD rest) :=
      ⟨_, (Text.after?_eq_some_iff.mp hcolon).symm⟩
    exact (List.dropWhile_suffix _).trans
      (hbehind.trans ((List.dropWhile_suffix _).trans (hmark.trans hname)))

/-- What starts with a word is a parameter of that name. Its type is on one line, and without a comma if it
stands between commas. -/
theorem exists_parameter {piece : List Char} (h : frontWord piece ≠ []) (hpiece : ',' ∉ piece) :
    ∃ type, parameter? piece = some ⟨String.ofList (frontWord piece), type⟩ ∧
      ',' ∉ type.toList ∧ '\n' ∉ type.toList := by
  have hfirst : (word? (trim piece)).map (·.1) = some (String.ofList (frontWord piece)) :=
    (firstWord?_eq piece).trans (if_neg h)
  obtain ⟨⟨name, rest⟩, hword, rfl⟩ := Option.map_eq_some_iff.mp hfirst
  rw [parameter?]
  cases htyped : typedParameter? (trim piece) with
  | none => exact ⟨"unknown", by rw [hword]; rfl, by decide, by decide⟩
  | some q =>
    obtain ⟨rest', type, hname, hsuffix, hline, htype⟩ := typedParameter?_eq_some htyped
    obtain ⟨hq, -⟩ := Prod.mk.inj (Option.some.inj (hname.symm.trans hword))
    refine ⟨q.type, by rw [← hq]; rfl, ?_, ?_⟩
    · rw [htype, String.toList_ofList]
      exact fun hmem ↦ hpiece (Text.mem_of_mem_trim (hsuffix.subset (Text.mem_of_mem_trim hmem)))
    · rw [htype, String.toList_ofList]
      exact fun hmem ↦ hline (Text.mem_of_mem_trim hmem)

namespace WrittenParameter

variable (p : WrittenParameter)

theorem apart_annotated : Apart p.annotated := by
  rw [annotated]
  cases p.ascription with
  | none => exact .nil
  | some a =>
    rw [Option.elim_some, Ascription.mark, List.append_assoc]
    split
    · exact .cons rfl _
    · rw [List.nil_append, List.append_assoc]
      exact .of_blank a.blank_beforeColon (.cons rfl _)

theorem apart_tail : Apart p.tail := by
  have hannotated := p.apart_annotated
  rw [tail]
  cases hcases : p.annotated with
  | cons c rest =>
    rw [hcases] at hannotated
    exact .cons (hannotated c rfl) _
  | nil =>
    have hafter := Apart.of_blank p.blank_after .nil
    rwa [List.append_nil] at hafter

theorem frontWord_text : frontWord p.text = p.name := by
  rw [text, frontWord_blank p.blank_before, frontWord_name p.isName p.apart_tail]

/-- What is read of a parameter. -/
def entries : List Parameter := (splitOn ',' p.text).filterMap parameter?

/-- The first piece of a parameter has its name. -/
theorem exists_first : ∃ type, parameter? (p.text.takeWhile (· != ',')) = some ⟨String.ofList p.name, type⟩ ∧
    ',' ∉ type.toList ∧ '\n' ∉ type.toList := by
  have hfront : frontWord (p.text.takeWhile (· != ',')) = p.name := by
    rw [frontWord_takeWhile, p.frontWord_text]
  have hpiece : ',' ∉ p.text.takeWhile (· != ',') := fun hmem ↦ by
    simpa using List.all_eq_true.mp List.all_takeWhile _ hmem
  have h := exists_parameter (by rw [hfront]; exact p.isName.ne_nil) hpiece
  rwa [hfront] at h

theorem entries_ne_nil : p.entries ≠ [] := by
  obtain ⟨pieces, hsplit⟩ := Text.exists_splitOn_takeWhile ',' p.text
  rw [entries, hsplit]
  obtain ⟨type, hfirst, -⟩ := exists_first p
  rw [List.filterMap_cons_some hfirst]
  exact List.cons_ne_nil _ _

theorem trim_text : trim p.text = p.name ++ p.annotated := by
  have hstart : trimStart (p.name ++ p.tail) = p.name ++ p.tail := by
    obtain ⟨c, cs, hname⟩ := List.exists_cons_of_ne_nil p.isName.ne_nil
    rw [hname]
    exact Text.trimStart_cons (Text.isBlank_of_isWord (p.isName.word c (hname ▸ List.mem_cons_self))) _
  have hlast : ∀ c ∈ (p.name ++ p.annotated).getLast?, isBlank c = false := by
    rw [annotated]
    cases p.ascription with
    | none =>
      rw [Option.elim_none, List.append_nil]
      exact fun c hc ↦ Text.isBlank_of_isWord (p.isName.word c (List.mem_of_mem_getLast? hc))
    | some a =>
      have hne : a.type.toList ≠ [] := fun h ↦ a.ne_empty (String.toList_eq_nil_iff.mp h)
      rw [Option.elim_some, ← List.append_assoc, List.getLast?_append_of_ne_nil _ hne]
      exact a.trimmed.2
  rw [text, trim, Text.trimStart_append p.blank_before, hstart, tail, ← List.append_assoc,
    Text.trimEnd_append hlast p.blank_after]

end WrittenParameter

/-- The mark of an ascription is taken off its type. -/
theorem Ascription.without_mark (a : Ascription) (rest : List Char) :
    (text? "?" (a.mark ++ rest)).getD (a.mark ++ rest) = a.beforeColon ++ ':' :: (a.afterColon ++ rest) := by
  cases hoptional : a.optional with
  | true => simp [mark, hoptional, text?, Text.after?]
  | false =>
    have hmark : a.mark ++ rest = a.beforeColon ++ ':' :: (a.afterColon ++ rest) := by simp [mark, hoptional]
    rw [hmark]
    cases hbefore : a.beforeColon with
    | nil => rfl
    | cons c before =>
      have hc : ('?' == c) = false := by
        refine beq_eq_false_iff_ne.mpr fun heq ↦ ?_
        have hblank := a.blank_beforeColon c (hbefore ▸ List.mem_cons_self)
        rw [← heq] at hblank
        cases hblank
      simp [text?, Text.after?, hc]

namespace WrittenParameter

variable (p : WrittenParameter)

/-- A type without line breaks is read as it is, if all of it is there. -/
theorem parameter?_text (h : p.Short) : parameter? p.text = some p.entry := by
  rw [parameter?, p.trim_text, typedParameter?, word?_name p.isName p.apart_annotated]
  cases hascription : p.ascription with
  | none =>
    rw [annotated, entry, type, hascription]
    rfl
  | some a =>
    have hcolon : trimStart (a.beforeColon ++ ':' :: (a.afterColon ++ a.type.toList)) =
        ':' :: (a.afterColon ++ a.type.toList) :=
      (Text.trimStart_append a.blank_beforeColon _).trans (Text.trimStart_cons rfl _)
    have htype : trimStart (a.afterColon ++ a.type.toList) = a.type.toList :=
      (Text.trimStart_append a.blank_afterColon _).trans (Text.trimStart_of_head? a.trimmed.1)
    have hne : ¬(a.type.toList.isEmpty || a.type.toList.contains '\n') = true := by
      simpa [a.ne_empty] using (h a hascription).2
    have hafter : text? ":" (':' :: (a.afterColon ++ a.type.toList)) = some (a.afterColon ++ a.type.toList) :=
      Text.after?_eq_some_iff.mpr rfl
    have htrim : String.ofList (trim a.type.toList) = a.type := Text.strip_of_trimmed a.trimmed
    rw [annotated, entry, type, hascription]
    simp only [Option.elim_some, Option.bind_eq_bind, Option.bind_some, a.without_mark, hcolon, hafter, htype,
      if_neg hne, htrim, Option.some_or]

theorem not_mem_text (h : p.Short) : ',' ∉ p.text := by
  have hblank : ∀ {cs}, Blank cs → ',' ∉ cs := fun h hmem ↦ nomatch h ',' hmem
  have hname : ',' ∉ p.name := fun hmem ↦ nomatch p.isName.word ',' hmem
  have hannotated : ',' ∉ p.annotated := by
    rw [annotated]
    cases hascription : p.ascription with
    | none => exact List.not_mem_nil
    | some a =>
      have hmark : ',' ∉ a.mark := by
        rw [Ascription.mark]
        split <;> simp [hblank a.blank_beforeColon, hblank a.blank_afterColon]
      simpa [hmark] using (h a hascription).1
  simp [text, tail, hblank p.blank_before, hblank p.blank_after, hname, hannotated]

/-- A parameter is read as it is exactly if its type has neither commas nor line breaks. -/
theorem entries_eq_iff : p.entries = [p.entry] ↔ p.Short := by
  constructor
  · intro h a ha
    obtain ⟨pieces, hsplit⟩ := Text.exists_splitOn_takeWhile ',' p.text
    obtain ⟨type, hfirst, htype⟩ := p.exists_first
    rw [entries, hsplit, List.filterMap_cons_some hfirst] at h
    obtain ⟨hentry, -⟩ := List.cons.inj h
    have hread : type = a.type := by
      rw [(Parameter.mk.inj hentry).2, WrittenParameter.type, ha, Option.elim_some]
    rwa [hread] at htype
  · intro h
    rw [entries, Text.splitOn_of_not_mem (p.not_mem_text h), List.filterMap_cons_some (p.parameter?_text h)]
    rfl

end WrittenParameter

/-- The parameters of a function are read one by one. -/
theorem parameters_text (l : ParameterList) :
    parameters l.text = l.params.flatMap WrittenParameter.entries := by
  have hclosing : l.closing.toList.flatMap (fun gap ↦ (splitOn ',' gap).filterMap parameter?) = [] := by
    cases hclosing : l.closing with
    | none => rfl
    | some gap =>
      have hblank := l.blank_closing gap hclosing
      have hcomma : ',' ∉ gap := fun hmem ↦ nomatch hblank ',' hmem
      have hfront := frontWord_blank hblank []
      rw [List.append_nil] at hfront
      simp [Text.splitOn_of_not_mem hcomma, parameter?_eq_none_iff.mpr hfront]
  rw [ParameterList.text, parameters, String.toList_ofList]
  by_cases hempty : l.params.map WrittenParameter.text ++ l.closing.toList = []
  · obtain ⟨hparams, -⟩ := List.append_eq_nil_iff.mp hempty
    rw [hempty, List.map_eq_nil_iff.mp hparams]
    rfl
  · rw [Text.splitOn_intercalate hempty, List.flatMap_append, List.filterMap_append, List.flatMap_map,
      List.filterMap_flatMap, List.filterMap_flatMap, hclosing, List.append_nil]
    rfl

/-! ## Members and parameters as they are written -/

/-- What is read between commas. An enum gives the names of its members one by one, but for those behind a
comment, and with them the words behind the commas in literals, brackets and comments. A function gives its
parameters as they are written exactly if no type has a comma or a line break in it. -/
theorem separated_at_commas (b : EnumBody) (l : ParameterList) :
    enumValues b.text = b.members.flatMap EnumMember.entries ++ b.closing.elim [] wordsBehind ∧
    (b.NothingHidden → (enumValues b.text = b.names ↔ b.NothingAdded)) ∧
    (b.NothingAdded → (enumValues b.text = b.names ↔ b.NothingHidden)) ∧
    (parameters l.text = l.params.map WrittenParameter.entry ↔ ∀ p ∈ l.params, p.Short) := by
  refine ⟨enumValues_text b, b.names_iff_nothingAdded, b.names_iff_nothingHidden, ?_⟩
  rw [parameters_text, flatMap_eq_map_iff fun p _ ↦ p.entries_ne_nil]
  exact forall₂_congr fun p _ ↦ p.entries_eq_iff

/-- The member `A = "x, y"`. -/
def initialized : EnumMember where
  before := []
  name := ['A']
  after := [' ']
  initializer := some " \"x, y\"".toList
  gap_before := .nil
  isName := by decide
  gap_after := .blank rfl .nil
  nested := by
    have hquoted : IsQuoted '"' "x, y".toList := by
      refine .plain ?_ ?_ (.plain ?_ ?_ (.plain ?_ ?_ (.plain ?_ ?_ .nil))) <;> decide
    rintro text ⟨⟩
    exact .gap (.blank rfl .nil) (.literal rfl hquoted .nil)

/-- The member `B`. -/
def bare : EnumMember where
  before := [' ']
  name := ['B']
  after := []
  initializer := none
  gap_before := .blank rfl .nil
  isName := by decide
  gap_after := .nil
  nested := fun text h ↦ nomatch h

/-- The parameter `m: Map<string, number>`. -/
def generic : WrittenParameter where
  before := []
  name := ['m']
  ascription := some
    { optional := false
      beforeColon := []
      afterColon := [' ']
      type := "Map<string, number>"
      blank_beforeColon := by decide
      blank_afterColon := by decide
      ne_empty := by decide
      trimmed := by decide
      nested := by
        have hinside : IsNested typeBrackets true ("string".toList ++ ',' :: (" number".toList ++ [])) :=
          .singles _ (by decide) (.comma (.singles _ (by decide) .nil))
        have hpair : ('<', '>') ∈ typeBrackets := List.mem_cons_self
        exact .singles "Map".toList (by decide) (.group hpair hinside .nil) }
  after := []
  blank_before := by decide
  isName := by decide
  blank_after := by decide

/-- A comma in a literal adds a member, and a comma in a type takes the rest of the type away. -/
theorem separated_inside :
    (∃ b : EnumBody, b.text = "A = \"x, y\", B" ∧ b.names = ["A", "B"] ∧ enumValues b.text = ["A", "y", "B"]) ∧
    ∃ l : ParameterList, l.text = "m: Map<string, number>" ∧
      l.params.map WrittenParameter.entry = [⟨"m", "Map<string, number>"⟩] ∧
      parameters l.text = [⟨"m", "Map<string"⟩, ⟨"number", "unknown"⟩] := by
  exact ⟨⟨⟨[initialized, bare], none, fun gap h ↦ nomatch h⟩, rfl, rfl, rfl⟩,
    ⟨⟨[generic], none, fun gap h ↦ nomatch h⟩, rfl, rfl, rfl⟩⟩

end FeatureAtlas.Declaration
