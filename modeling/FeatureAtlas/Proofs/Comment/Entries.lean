import FeatureAtlas.Comment.Tag
import FeatureAtlas.Proofs.Distinct
import FeatureAtlas.Proofs.Text.Split
import FeatureAtlas.Proofs.Text.Trim

/-!
# Lists of entries

The entries of a text between commas are a list of a certain form: none is empty, none has a comma or blanks at
its ends, and none stands there twice. A list of this form is what its own text says, joined by commas and
blanks: the commas take it apart where it was joined, the blanks are trimmed away, and there is nothing to drop.
So the lists of this form are exactly those that survive being written and read.
-/

namespace FeatureAtlas.Comment

/-- The form of a list of entries. -/
structure IsEntries (es : List String) : Prop where
  ne_empty : ∀ e ∈ es, e ≠ ""
  trimmed : ∀ e ∈ es, Text.Trimmed e
  no_comma : ∀ e ∈ es, ',' ∉ e.toList
  nodup : es.Nodup

/-! ## Reading gives the form -/

theorem mem_entries {value e : String} :
    e ∈ entries value ↔ e ≠ "" ∧ ∃ piece ∈ Text.split ',' value, Text.strip piece = e := by
  rw [entries, mem_distinct, List.mem_filter, List.mem_map, and_comm, bne_iff_ne]

theorem not_mem_of_mem_split {value piece : String} (h : piece ∈ Text.split ',' value) :
    ',' ∉ piece.toList := by
  obtain ⟨cs, hcs, rfl⟩ := List.mem_map.mp h
  rw [String.toList_ofList]
  exact Text.not_mem_of_mem_splitOn hcs

theorem isEntries_entries (value : String) : IsEntries (entries value) where
  ne_empty e he := (mem_entries.mp he).1
  trimmed e he := by
    obtain ⟨-, piece, -, rfl⟩ := mem_entries.mp he
    exact Text.trimmed_strip piece
  no_comma e he := by
    obtain ⟨-, piece, hpiece, rfl⟩ := mem_entries.mp he
    rw [Text.strip, String.toList_ofList]
    exact fun hcomma ↦ not_mem_of_mem_split hpiece (Text.mem_of_mem_trim hcomma)
  nodup := nodup_distinct _

/-! ## Writing and reading -/

theorem intercalate_cons_front {sep front : List Char} {c : Char} (rest : List (List Char)) :
    sep.intercalate ((c :: front) :: rest) = c :: sep.intercalate (front :: rest) := by
  cases rest with
  | nil => rw [List.intercalate_singleton, List.intercalate_singleton]
  | cons next rest => rw [List.intercalate_cons_cons, List.intercalate_cons_cons]; rfl

/-- Between the commas stand the entries, all but the first one behind a blank. -/
theorem join_eq_join_comma (e : String) (es : List String) :
    Text.join ", " (e :: es) = Text.join "," (e :: es.map (" " ++ ·)) := by
  refine String.toList_injective ?_
  rw [Text.join, Text.join, String.toList_intercalate, String.toList_intercalate]
  induction es generalizing e with
  | nil => rfl
  | cons next es ih =>
    have hblank : (" " ++ next).toList = ' ' :: next.toList := String.toList_append
    simp only [List.map_cons, List.intercalate_cons_cons, hblank, intercalate_cons_front] at ih ⊢
    rw [ih next, List.append_assoc, List.append_assoc]
    rfl

theorem strip_blank_append (s : String) : Text.strip (" " ++ s) = Text.strip s := by
  rw [Text.strip, Text.strip, String.toList_append]
  rfl

/-- A list of the form is read from its text. -/
theorem IsEntries.entries_join {es : List String} (h : IsEntries es) :
    entries (Text.join ", " es) = es := by
  cases es with
  | nil => rfl
  | cons e es =>
    have hcomma : ∀ piece ∈ e :: es.map (" " ++ ·), ',' ∉ piece.toList := by
      intro piece hpiece
      rcases List.mem_cons.mp hpiece with rfl | hmem
      · exact h.no_comma _ List.mem_cons_self
      · obtain ⟨x, hx, rfl⟩ := List.mem_map.mp hmem
        simpa using h.no_comma x (List.mem_cons_of_mem e hx)
    have hstrip : (e :: es.map (" " ++ ·)).map Text.strip = e :: es := by
      obtain ⟨he, hes⟩ := List.forall_mem_cons.mp h.trimmed
      rw [List.map_cons, Text.strip_of_trimmed he, List.map_map]
      refine congrArg (e :: ·) ((List.map_congr_left fun x hx ↦ ?_).trans (List.map_id es))
      rw [Function.comp_apply, strip_blank_append, Text.strip_of_trimmed (hes x hx), id_eq]
    rw [entries, join_eq_join_comma, Text.split_join rfl (List.cons_ne_nil _ _) hcomma, hstrip,
      List.filter_eq_self.mpr fun x hx ↦ bne_iff_ne.mpr (h.ne_empty x hx), distinct_of_nodup h.nodup]

/-- **The entries of a text are a canonical form.** They are not empty, trimmed, without commas and different from
each other; and they are the texts between the commas, trimmed, that are not blank, each in the place where it
first occurs. The lists of this form are exactly those that are read unchanged from their joined text, so reading
the joined entries of any text gives these entries again. -/
theorem entries_canonical (value : String) :
    IsEntries (entries value) ∧
      (∃ pieces, pieces ≠ [] ∧ (∀ piece ∈ pieces, ',' ∉ piece.toList) ∧ Text.join "," pieces = value ∧
        ListsFirst ((pieces.map Text.strip).filter (· != "")) (entries value)) ∧
      (∀ es, entries (Text.join ", " es) = es ↔ IsEntries es) ∧
      entries (Text.join ", " (entries value)) = entries value := by
  have hform := isEntries_entries value
  refine ⟨hform, ⟨Text.split ',' value, Text.split_ne_nil ',' value, fun piece ↦ not_mem_of_mem_split,
    Text.join_split rfl value, listsFirst_distinct _⟩, fun es ↦ ⟨fun heq ↦ ?_, IsEntries.entries_join⟩,
    hform.entries_join⟩
  rw [← heq]
  exact isEntries_entries _

end FeatureAtlas.Comment
