import FeatureAtlas.Declaration.ExportedType
import FeatureAtlas.Proofs.Declaration.Braced
import FeatureAtlas.Proofs.Declaration.Word

/-!
# Members between commas

The members of an enum are taken from the pieces between all commas. In the grammar a comma separates members
only where it stands outside of brackets, literals and comments, so a member may be cut into several pieces.
What becomes of it is said for its text as a whole: its first piece starts with its name, unless a comment
stands in front of it, and each comma inside it that a word follows adds that word.
-/

namespace FeatureAtlas.Declaration

open Text (isBlank isWord splitOn trim trimStart trimEnd)

/-! ## The grammar -/

/-- Blanks and comments. -/
inductive IsGap : List Char → Prop where
  | nil : IsGap []
  | blank {c : Char} {rest : List Char} (h : isBlank c = true) (others : IsGap rest) : IsGap (c :: rest)
  | lineComment {text rest : List Char} (one_line : '\n' ∉ text) (others : IsGap rest) :
    IsGap ('/' :: '/' :: (text ++ '\n' :: rest))
  | blockComment {text rest : List Char} (unclosed : ¬['*', '/'] <:+: text) (others : IsGap rest) :
    IsGap ('/' :: '*' :: (text ++ '*' :: '/' :: rest))

/-- A character that stands for itself between brackets of the given pairs. -/
def IsSingle (brackets : List (Char × Char)) (c : Char) : Prop :=
  c ≠ ',' ∧ isQuote c = false ∧ ∀ p ∈ brackets, c ≠ p.1 ∧ c ≠ p.2

instance (brackets : List (Char × Char)) (c : Char) : Decidable (IsSingle brackets c) :=
  inferInstanceAs (Decidable (_ ∧ _))

/-- A text with balanced brackets. A comma stands inside of brackets, of a literal or of a comment; if the text
is itself `inner`, it may stand anywhere. -/
inductive IsNested (brackets : List (Char × Char)) : Bool → List Char → Prop where
  | nil {inner : Bool} : IsNested brackets inner []
  | comma {rest : List Char} (others : IsNested brackets true rest) : IsNested brackets true (',' :: rest)
  | group {inner : Bool} {opening closing : Char} {text rest : List Char}
    (h : (opening, closing) ∈ brackets) (inside : IsNested brackets true text)
    (others : IsNested brackets inner rest) :
    IsNested brackets inner (opening :: (text ++ closing :: rest))
  | literal {inner : Bool} {quote : Char} {text rest : List Char} (delimits : isQuote quote = true)
    (inside : IsQuoted quote text) (others : IsNested brackets inner rest) :
    IsNested brackets inner (quote :: (text ++ quote :: rest))
  | gap {inner : Bool} {text rest : List Char} (h : IsGap text) (others : IsNested brackets inner rest) :
    IsNested brackets inner (text ++ rest)
  | arrow {inner : Bool} {rest : List Char} (others : IsNested brackets inner rest) :
    IsNested brackets inner ('=' :: '>' :: rest)
  | single {inner : Bool} {c : Char} {rest : List Char} (h : IsSingle brackets c)
    (apart : c = '/' → ¬StartsComment rest) (others : IsNested brackets inner rest) :
    IsNested brackets inner (c :: rest)

/-- The brackets in values. -/
def valueBrackets : List (Char × Char) := [('(', ')'), ('[', ']'), ('{', '}')]

/-- The brackets in types. -/
def typeBrackets : List (Char × Char) := ('<', '>') :: valueBrackets

theorem IsNested.singles {brackets : List (Char × Char)} {inner : Bool} {rest : List Char} (cs : List Char)
    (h : cs.all (fun c ↦ IsSingle brackets c ∧ c ≠ '/') = true) (others : IsNested brackets inner rest) :
    IsNested brackets inner (cs ++ rest) := by
  induction cs with
  | nil => exact others
  | cons c cs ih =>
    rw [List.all_cons, Bool.and_eq_true, decide_eq_true_eq] at h
    obtain ⟨⟨hc, hslash⟩, hcs⟩ := h
    exact .single hc (fun heq ↦ absurd heq hslash) (ih hcs)

/-- A member of an enum with what stands around it. -/
structure EnumMember where
  before : List Char
  name : List Char
  after : List Char
  initializer : Option (List Char)
  gap_before : IsGap before
  isName : IsName name
  gap_after : IsGap after
  nested : ∀ text ∈ initializer, IsNested valueBrackets false text

namespace EnumMember

/-- What follows the name. -/
def tail (m : EnumMember) : List Char := m.after ++ m.initializer.elim [] ('=' :: ·)

/-- How a member is written. -/
def text (m : EnumMember) : List Char := m.before ++ (m.name ++ m.tail)

end EnumMember

/-- Members between commas; another comma may stand behind the last one. -/
structure EnumBody where
  members : List EnumMember
  closing : Option (List Char)
  gap_closing : ∀ g ∈ closing, IsGap g

namespace EnumBody

/-- How members are written between the braces of an enum. -/
def text (b : EnumBody) : String :=
  String.ofList ([','].intercalate (b.members.map EnumMember.text ++ b.closing.toList))

/-- The names of the members. -/
def names (b : EnumBody) : List String := b.members.map fun m ↦ String.ofList m.name

end EnumBody

/-! ## What is read of members -/

theorem IsGap.apart {gap : List Char} (h : IsGap gap) : Apart gap := by
  cases h with
  | nil => exact .nil
  | blank h => exact .cons (Text.isWord_of_isBlank h) _
  | lineComment => exact .cons rfl _
  | blockComment => exact .cons rfl _

/-- A gap that is not blank hides what follows it. -/
theorem IsGap.frontWord {gap : List Char} (h : IsGap gap) (hblank : ¬Blank gap) (rest : List Char) :
    Declaration.frontWord (gap ++ rest) = [] := by
  induction h with
  | nil => exact absurd (fun c hc ↦ nomatch hc) hblank
  | @blank c gap hc others ih =>
    have hone : Blank [c] := by simpa [Blank] using hc
    refine (frontWord_blank hone (gap ++ rest)).trans (ih fun hgap ↦ hblank ?_)
    exact List.forall_mem_cons.mpr ⟨hc, hgap⟩
  | lineComment => rfl
  | blockComment => rfl

theorem IsGap.firstWord? {gap : List Char} (h : IsGap gap) : Declaration.firstWord? gap = none := by
  rw [firstWord?_eq_none_iff, ← List.append_nil gap]
  by_cases hblank : Blank gap
  · exact frontWord_blank hblank []
  · exact h.frontWord hblank []

namespace EnumMember

variable (m : EnumMember)

/-- A comment stands in front of the name. -/
def Hidden : Prop := ¬Blank m.before

instance : Decidable m.Hidden := inferInstanceAs (Decidable ¬_)

theorem apart_tail : Apart m.tail := by
  have hafter := m.gap_after.apart
  rw [tail]
  cases hcases : m.after with
  | cons c after =>
    rw [hcases] at hafter
    exact .cons (hafter c rfl) _
  | nil =>
    cases m.initializer with
    | none => exact .nil
    | some text => exact .cons rfl _

theorem firstWord?_text : firstWord? m.text = if m.Hidden then none else some (String.ofList m.name) := by
  split
  · next hhidden => exact firstWord?_eq_none_iff.mpr (m.gap_before.frontWord hhidden _)
  · next hblank =>
    rw [firstWord?_eq, text, frontWord_blank (not_not.mp hblank), frontWord_name m.isName m.apart_tail,
      if_neg m.isName.ne_nil]

/-- What is read of a member: its name, unless that is hidden, and the words behind the commas in it. -/
def entries : List String :=
  (if m.Hidden then none else some (String.ofList m.name)).toList ++ wordsBehind m.text

end EnumMember

/-- The members of an enum are read one by one. -/
theorem enumValues_text (b : EnumBody) :
    enumValues b.text = b.members.flatMap EnumMember.entries ++ b.closing.elim [] wordsBehind := by
  have hall : enumValues b.text =
      (splitOn ',' ([','].intercalate (b.members.map EnumMember.text ++ b.closing.toList))).filterMap
        firstWord? := by
    rw [EnumBody.text, enumValues, String.toList_ofList]
    rfl
  by_cases hempty : b.members.map EnumMember.text ++ b.closing.toList = []
  · obtain ⟨hmembers, hclosing⟩ := List.append_eq_nil_iff.mp hempty
    rw [hall, hempty, List.map_eq_nil_iff.mp hmembers, Option.toList_eq_nil_iff.mp hclosing]
    rfl
  · rw [hall, Text.splitOn_intercalate hempty, List.flatMap_append, List.filterMap_append, List.flatMap_map,
      List.filterMap_flatMap]
    refine congrArg₂ (· ++ ·) ?_ ?_
    · refine congrArg (b.members.flatMap ·) (funext fun m ↦ ?_)
      rw [words_eq, m.firstWord?_text, EnumMember.entries]
    · cases hclosing : b.closing with
      | none => rfl
      | some gap =>
        rw [Option.toList_some, List.flatMap_singleton, words_eq,
          (b.gap_closing gap hclosing).firstWord?]
        rfl

/-! ## Members as they are written -/

section

variable {α β : Type} {f : α → List β} {xs : List α}

theorem length_le_flatMap (h : ∀ x ∈ xs, f x ≠ []) : xs.length ≤ (xs.flatMap f).length := by
  induction xs with
  | nil => exact Nat.zero_le _
  | cons x xs ih =>
    obtain ⟨hx, hxs⟩ := List.forall_mem_cons.mp h
    have hfirst := List.length_pos_iff.mpr hx
    have hothers := ih hxs
    rw [List.flatMap_cons, List.length_append, List.length_cons]
    omega

/-- Entries of which there is at least one for each element are one for each of them exactly if they are so
element by element. -/
theorem flatMap_eq_map_iff {g : α → β} (h : ∀ x ∈ xs, f x ≠ []) :
    xs.flatMap f = xs.map g ↔ ∀ x ∈ xs, f x = [g x] := by
  induction xs with
  | nil => simp
  | cons x xs ih =>
    obtain ⟨hx, hxs⟩ := List.forall_mem_cons.mp h
    rw [List.forall_mem_cons, ← ih hxs]
    constructor
    · intro heq
      obtain ⟨first, others, hfirst⟩ := List.exists_cons_of_ne_nil hx
      rw [List.flatMap_cons, hfirst, List.cons_append, List.map_cons] at heq
      obtain ⟨rfl, hrest⟩ := List.cons.inj heq
      -- further entries of the first element would make too many of them
      have hnone : others = [] := by
        have hlength := congrArg List.length hrest
        have hothers := length_le_flatMap hxs
        rw [List.length_append, List.length_map] at hlength
        exact List.eq_nil_of_length_eq_zero (by omega)
      rw [hnone] at hfirst hrest
      exact ⟨hfirst, hrest⟩
    · rintro ⟨hfirst, hothers⟩
      rw [List.flatMap_cons, hfirst, hothers]
      rfl

end

namespace EnumBody

variable (b : EnumBody)

/-- No comment stands in front of a name. -/
def NothingHidden : Prop := ∀ m ∈ b.members, ¬m.Hidden

/-- No comma inside a member or behind the last one has a word behind it. -/
def NothingAdded : Prop :=
  (∀ m ∈ b.members, NoWordBehind m.text) ∧ ∀ gap ∈ b.closing, NoWordBehind gap

theorem closing_eq_nil_iff : b.closing.elim [] wordsBehind = [] ↔ ∀ gap ∈ b.closing, NoWordBehind gap := by
  cases b.closing with
  | none => simp
  | some gap => simpa using wordsBehind_eq_nil_iff

/-- Where nothing is hidden, the members are read exactly if nothing is added. -/
theorem names_iff_nothingAdded (h : b.NothingHidden) : enumValues b.text = b.names ↔ b.NothingAdded := by
  have hentries : ∀ m ∈ b.members, m.entries = String.ofList m.name :: wordsBehind m.text := fun m hm ↦ by
    rw [EnumMember.entries, if_neg (h m hm)]
    rfl
  have hne : ∀ m ∈ b.members, m.entries ≠ [] := fun m hm ↦ by
    rw [hentries m hm]
    exact List.cons_ne_nil _ _
  have hone : (∀ m ∈ b.members, m.entries = [String.ofList m.name]) ↔
      ∀ m ∈ b.members, NoWordBehind m.text := forall₂_congr fun m hm ↦ by
    rw [hentries m hm, List.cons.injEq, ← wordsBehind_eq_nil_iff]
    exact and_iff_right rfl
  rw [enumValues_text, names, NothingAdded, ← closing_eq_nil_iff, ← hone, ← flatMap_eq_map_iff hne]
  constructor
  · intro heq
    have hclosing : b.closing.elim [] wordsBehind = [] := by
      have hlength := congrArg List.length heq
      have hmembers := length_le_flatMap hne
      rw [List.length_append, List.length_map] at hlength
      exact List.eq_nil_of_length_eq_zero (by omega)
    rw [hclosing, List.append_nil] at heq
    exact ⟨heq, hclosing⟩
  · rintro ⟨hmembers, hclosing⟩
    rw [hmembers, hclosing, List.append_nil]

/-- Where nothing is added, the members are read exactly if nothing is hidden. -/
theorem names_iff_nothingHidden (h : b.NothingAdded) : enumValues b.text = b.names ↔ b.NothingHidden := by
  have hread : enumValues b.text =
      (b.members.filter fun m ↦ ¬m.Hidden).map fun m ↦ String.ofList m.name := by
    rw [enumValues_text, b.closing_eq_nil_iff.mpr h.2, List.append_nil]
    have hmembers := h.1
    generalize b.members = ms at hmembers
    induction ms with
    | nil => rfl
    | cons m ms ih =>
      obtain ⟨hm, hms⟩ := List.forall_mem_cons.mp hmembers
      rw [List.flatMap_cons, ih hms, EnumMember.entries, wordsBehind_eq_nil_iff.mpr hm]
      by_cases hhidden : m.Hidden <;> simp [hhidden]
  rw [hread, names]
  constructor
  · intro heq
    have hlength := congrArg List.length heq
    rw [List.length_map, List.length_map, List.length_filter_eq_length_iff] at hlength
    exact fun m hm ↦ by simpa using hlength m hm
  · intro hhidden
    rw [List.filter_eq_self.mpr fun m hm ↦ by simpa using hhidden m hm]

end EnumBody

end FeatureAtlas.Declaration
