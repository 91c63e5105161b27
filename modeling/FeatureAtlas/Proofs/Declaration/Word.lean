import FeatureAtlas.Declaration.Scan
import FeatureAtlas.Proofs.Text.Split
import FeatureAtlas.Proofs.Text.Trim
import Mathlib.Data.List.TakeWhile
import Mathlib.Tactic.Conv

/-!
# Words at the front

A name is read as the word at the front of a trimmed text. Blanks in front of it do not count, and it ends
before a comma, so the word of a text is the word of its first piece between commas. The words of the other
pieces are those that stand behind the commas.
-/

namespace FeatureAtlas

namespace Text

/-- The code points of blanks. -/
def blankCodes : List Nat :=
  List.range' 9 5 ++ List.range' 28 5 ++ [0x85, 0xa0, 0x1680] ++ List.range' 0x2000 11 ++
    [0x2028, 0x2029, 0x202f, 0x205f, 0x3000]

theorem toNat_mem_blankCodes {c : Char} (h : isBlank c = true) : c.toNat ∈ blankCodes := by
  simp only [isBlank, Bool.or_eq_true, Bool.and_eq_true, decide_eq_true_eq, beq_iff_eq] at h
  simp only [blankCodes, List.mem_append, List.mem_range'_1, List.mem_cons, List.not_mem_nil, or_false]
  omega

/-- No blank is part of a word. -/
theorem isWord_of_isBlank {c : Char} (h : isBlank c = true) : isWord c = false := by
  have hcodes : ∀ n ∈ blankCodes, isWord (Char.ofNat n) = false := by decide +kernel
  have hword := hcodes c.toNat (toNat_mem_blankCodes h)
  rwa [Char.ofNat_toNat] at hword

theorem isBlank_of_isWord {c : Char} (h : isWord c = true) : isBlank c = false :=
  Bool.eq_false_iff.mpr fun hblank ↦ by
    rw [isWord_of_isBlank hblank] at h
    cases h

theorem trimStart_append {blanks : List Char} (h : ∀ c ∈ blanks, isBlank c = true) (cs : List Char) :
    trimStart (blanks ++ cs) = trimStart cs := List.dropWhile_append_of_pos h

theorem trimStart_cons {c : Char} (h : isBlank c = false) (cs : List Char) :
    trimStart (c :: cs) = c :: cs := List.dropWhile_cons_of_neg (by rw [h]; exact Bool.false_ne_true)

end Text

namespace Declaration

open Text (isBlank isWord splitOn trim trimStart trimEnd)

/-- A name: one word. -/
structure IsName (cs : List Char) : Prop where
  ne_nil : cs ≠ []
  word : ∀ c ∈ cs, isWord c = true

-- The characters of the text are looked through, not all characters there are.
instance (cs : List Char) : Decidable (IsName cs) :=
  decidable_of_iff (cs ≠ [] ∧ cs.all isWord = true)
    ⟨fun h ↦ ⟨h.1, List.all_eq_true.mp h.2⟩, fun h ↦ ⟨h.ne_nil, List.all_eq_true.mpr h.word⟩⟩

/-- The text with blanks alone. -/
def Blank (cs : List Char) : Prop := ∀ c ∈ cs, isBlank c = true

instance (cs : List Char) : Decidable (Blank cs) :=
  decidable_of_iff (cs.all isBlank = true) List.all_eq_true

/-! ## Words at the front -/

/-- The characters of the word at the front of a text, behind blanks. -/
def frontWord (cs : List Char) : List Char := (trimStart cs).takeWhile isWord

/-- The word at the front of a trimmed text. -/
def firstWord? (piece : List Char) : Option String := (word? (trim piece)).map (·.1)

theorem takeWhile_isWord_blank {blanks : List Char} (h : Blank blanks) : blanks.takeWhile isWord = [] := by
  cases blanks with
  | nil => rfl
  | cons c blanks =>
    refine List.takeWhile_cons_of_neg ?_
    rw [Text.isWord_of_isBlank (h c List.mem_cons_self)]
    exact Bool.false_ne_true

theorem takeWhile_trimEnd (cs : List Char) : (trimEnd cs).takeWhile isWord = cs.takeWhile isWord := by
  obtain ⟨blanks, hcs, hblanks⟩ := Text.exists_trimEnd_append cs
  conv_rhs => rw [hcs, List.takeWhile_append]
  split
  · next hall =>
    rw [takeWhile_isWord_blank hblanks, List.append_nil]
    exact (List.takeWhile_prefix isWord).eq_of_length hall
  · rfl

theorem firstWord?_eq (piece : List Char) :
    firstWord? piece = if frontWord piece = [] then none else some (String.ofList (frontWord piece)) := by
  have hfront : (trim piece).takeWhile isWord = frontWord piece := takeWhile_trimEnd (trimStart piece)
  rw [firstWord?, word?]
  simp only [hfront, List.isEmpty_iff]
  split <;> rfl

/-- No word goes on with the text. -/
def Apart (cs : List Char) : Prop := ∀ c ∈ cs.head?, isWord c = false

theorem Apart.cons {c : Char} (h : isWord c = false) (rest : List Char) : Apart (c :: rest) :=
  fun _ hd ↦ Option.some.inj hd ▸ h

theorem Apart.nil : Apart [] := fun _ hc ↦ nomatch hc

theorem Apart.of_blank {blanks rest : List Char} (h : Blank blanks) (hrest : Apart rest) :
    Apart (blanks ++ rest) := by
  cases blanks with
  | nil => exact hrest
  | cons c blanks => exact .cons (Text.isWord_of_isBlank (h c List.mem_cons_self)) _

theorem word?_name {name rest : List Char} (hname : IsName name) (hrest : Apart rest) :
    word? (name ++ rest) = some (String.ofList name, rest) := by
  have hbehind : rest.takeWhile isWord = [] := by
    cases rest with
    | nil => rfl
    | cons c rest => exact List.takeWhile_cons_of_neg (by rw [hrest c rfl]; exact Bool.false_ne_true)
  have hword : (name ++ rest).takeWhile isWord = name := by
    rw [List.takeWhile_append_of_pos hname.word, hbehind, List.append_nil]
  have hne : ¬name.isEmpty = true := by simpa using hname.ne_nil
  rw [word?]
  simp only [hword, if_neg hne, List.drop_left]

theorem frontWord_blank {blanks : List Char} (h : Blank blanks) (rest : List Char) :
    frontWord (blanks ++ rest) = frontWord rest := by
  rw [frontWord, Text.trimStart_append h, frontWord]

theorem frontWord_cons {c : Char} (h : isBlank c = false) (rest : List Char) :
    frontWord (c :: rest) = (c :: rest).takeWhile isWord := by
  rw [frontWord, Text.trimStart_cons h]

theorem frontWord_name {name rest : List Char} (hname : IsName name) (hrest : Apart rest) :
    frontWord (name ++ rest) = name := by
  obtain ⟨c, cs, rfl⟩ := List.exists_cons_of_ne_nil hname.ne_nil
  have hword := word?_name hname hrest
  rw [word?] at hword
  split at hword
  · cases hword
  · rw [List.cons_append, frontWord_cons (Text.isBlank_of_isWord (hname.word c List.mem_cons_self))]
    exact String.ofList_injective (Prod.mk.inj (Option.some.inj hword)).1

/-- A word ends before a comma. -/
theorem frontWord_takeWhile (cs : List Char) : frontWord (cs.takeWhile (· != ',')) = frontWord cs := by
  induction cs with
  | nil => rfl
  | cons c cs ih =>
    by_cases hc : c = ','
    · rw [hc]
      rfl
    · rw [List.takeWhile_cons_of_pos (by simpa using hc)]
      cases hblank : isBlank c with
      | true =>
        have hone : Blank [c] := by simpa [Blank] using hblank
        exact (frontWord_blank hone _).trans (ih.trans (frontWord_blank hone cs).symm)
      | false =>
        have hword : ∀ d, decide (isWord d = true ∧ (d != ',') = true) = isWord d := by
          intro d
          by_cases hd : d = ','
          · rw [hd]
            rfl
          · simp [hd]
        rw [frontWord_cons hblank, frontWord_cons hblank, ← List.takeWhile_cons_of_pos (by simpa using hc),
          List.takeWhile_takeWhile]
        simp only [hword]

/-! ## Words behind commas -/

/-- The words that stand behind the commas of a text. -/
def wordsBehind (cs : List Char) : List String := (splitOn ',' cs).tail.filterMap firstWord?

/-- No comma of the text has a word behind it. -/
def NoWordBehind (cs : List Char) : Prop := ∀ rest, ',' :: rest <:+ cs → frontWord rest = []

theorem words_eq (cs : List Char) :
    (splitOn ',' cs).filterMap firstWord? = (firstWord? cs).toList ++ wordsBehind cs := by
  obtain ⟨pieces, hsplit⟩ := Text.exists_splitOn_takeWhile ',' cs
  have hfirst : firstWord? (cs.takeWhile (· != ',')) = firstWord? cs := by
    rw [firstWord?_eq, frontWord_takeWhile, ← firstWord?_eq]
  rw [wordsBehind, hsplit, List.filterMap_cons, hfirst, List.tail_cons]
  cases firstWord? cs <;> rfl

theorem firstWord?_eq_none_iff {piece : List Char} : firstWord? piece = none ↔ frontWord piece = [] := by
  rw [firstWord?_eq]
  split <;> simp_all

theorem wordsBehind_eq_nil_iff {cs : List Char} : wordsBehind cs = [] ↔ NoWordBehind cs := by
  induction cs with
  | nil => simp [wordsBehind, splitOn, NoWordBehind]
  | cons c cs ih =>
    by_cases hc : c = ','
    · have hbehind : wordsBehind (c :: cs) = (firstWord? cs).toList ++ wordsBehind cs := by
        rw [wordsBehind, hc, Text.splitOn_cons_self, List.tail_cons, words_eq]
      rw [hbehind, List.append_eq_nil_iff, ih, Option.toList_eq_nil_iff, firstWord?_eq_none_iff]
      simp only [NoWordBehind, List.suffix_cons_iff, hc, List.cons.injEq, true_and]
      exact ⟨fun h rest hrest ↦ hrest.elim (fun heq ↦ heq ▸ h.1) (h.2 rest),
        fun h ↦ ⟨h cs (.inl rfl), fun rest hrest ↦ h rest (.inr hrest)⟩⟩
    · have hbehind : wordsBehind (c :: cs) = wordsBehind cs := by
        obtain ⟨first, others, hcs, hsplit⟩ := Text.exists_splitOn_cons hc cs
        rw [wordsBehind, wordsBehind, hsplit, hcs, List.tail_cons, List.tail_cons]
      rw [hbehind, ih]
      simp only [NoWordBehind, List.suffix_cons_iff, List.cons.injEq, Ne.symm hc, false_and, false_or]

end Declaration

end FeatureAtlas
