import FeatureAtlas.Text.Basic

/-!
# Trimmed texts

A text is trimmed if no blank stands at either end. Stripping gives a trimmed text and keeps trimmed texts,
so it is idempotent.
-/

namespace FeatureAtlas.Text

/-- No blank stands at an end of the text. -/
def Trimmed (s : String) : Prop :=
  (∀ c ∈ s.toList.head?, isBlank c = false) ∧ (∀ c ∈ s.toList.getLast?, isBlank c = false)

-- named, because there is also an instance that goes through every character there is
instance (s : String) : Decidable (Trimmed s) :=
  @instDecidableAnd _ _ (Option.decidableForallMem _) (Option.decidableForallMem _)

private theorem dropWhile_of_head? {p : Char → Bool} {cs : List Char}
    (h : ∀ c ∈ cs.head?, p c = false) : cs.dropWhile p = cs := by
  cases cs with
  | nil => rfl
  | cons c cs => rw [List.dropWhile_cons_of_neg (by rw [h c rfl]; decide)]

private theorem head?_dropWhile (p : Char → Bool) (cs : List Char) :
    ∀ c ∈ (cs.dropWhile p).head?, p c = false := by
  intro c hc
  have h := List.head?_dropWhile_not p cs
  rwa [Option.mem_def.mp hc] at h

theorem trimStart_of_head? {cs : List Char} (h : ∀ c ∈ cs.head?, isBlank c = false) :
    trimStart cs = cs := dropWhile_of_head? h

theorem trimEnd_of_getLast? {cs : List Char} (h : ∀ c ∈ cs.getLast?, isBlank c = false) :
    trimEnd cs = cs := by
  rw [trimEnd, dropWhile_of_head? (by rwa [List.head?_reverse]), List.reverse_reverse]

theorem getLast?_trimEnd (cs : List Char) : ∀ c ∈ (trimEnd cs).getLast?, isBlank c = false := by
  rw [trimEnd, List.getLast?_reverse]
  exact head?_dropWhile isBlank cs.reverse

theorem trimEnd_prefix (cs : List Char) : trimEnd cs <+: cs := by
  have h := List.reverse_prefix.mpr (List.dropWhile_suffix (l := cs.reverse) isBlank)
  rwa [List.reverse_reverse] at h

theorem trimEnd_cons {c : Char} (hc : isBlank c = false) (cs : List Char) :
    trimEnd (c :: cs) = c :: trimEnd cs := by
  rw [trimEnd, List.reverse_cons, List.dropWhile_append]
  split
  · next hall =>
    rw [trimEnd, List.isEmpty_iff.mp hall, List.dropWhile_cons_of_neg (by simp [hc])]
    rfl
  · rw [List.reverse_append, trimEnd]
    rfl

theorem trimEnd_append {cs blanks : List Char} (hlast : ∀ c ∈ cs.getLast?, isBlank c = false)
    (hblanks : ∀ c ∈ blanks, isBlank c = true) : trimEnd (cs ++ blanks) = cs := by
  have hreverse : ∀ c ∈ blanks.reverse, isBlank c = true := fun c hc ↦
    hblanks c (List.mem_reverse.mp hc)
  rw [trimEnd, List.reverse_append, List.dropWhile_append_of_pos hreverse]
  exact trimEnd_of_getLast? hlast

/-- What trimming the end takes away is blank. -/
theorem exists_trimEnd_append (cs : List Char) :
    ∃ blanks, cs = trimEnd cs ++ blanks ∧ ∀ c ∈ blanks, isBlank c = true := by
  refine ⟨(cs.reverse.takeWhile isBlank).reverse, ?_, fun c hc ↦ ?_⟩
  · rw [trimEnd, ← List.reverse_append, List.takeWhile_append_dropWhile, List.reverse_reverse]
  · exact List.all_eq_true.mp List.all_takeWhile c (List.mem_reverse.mp hc)

/-- Trimming takes characters away and adds none. -/
theorem mem_of_mem_trim {c : Char} {cs : List Char} (h : c ∈ trim cs) : c ∈ cs := by
  have hfront : trim cs <+: trimStart cs := trimEnd_prefix (trimStart cs)
  have hrest : trimStart cs <:+ cs := List.dropWhile_suffix isBlank
  exact hrest.subset (hfront.subset h)

theorem head?_trim (cs : List Char) : ∀ c ∈ (trim cs).head?, isBlank c = false := by
  intro c hc
  obtain ⟨rest, hrest⟩ := trimEnd_prefix (trimStart cs)
  refine head?_dropWhile isBlank cs c ?_
  -- what is left after trimming the end starts like what was there before
  rw [← trimStart, ← hrest, List.head?_append, Option.mem_def]
  rw [trim, Option.mem_def] at hc
  rw [hc, Option.some_or]

theorem trimmed_strip (s : String) : Trimmed (strip s) := by
  rw [Trimmed, strip, String.toList_ofList]
  exact ⟨head?_trim s.toList, getLast?_trimEnd _⟩

theorem strip_of_trimmed {s : String} (h : Trimmed s) : strip s = s := by
  rw [strip, trim, trimStart_of_head? h.1, trimEnd_of_getLast? h.2, String.ofList_toList]

@[simp] theorem strip_strip (s : String) : strip (strip s) = strip s :=
  strip_of_trimmed (trimmed_strip s)

end FeatureAtlas.Text
