import FeatureAtlas.Extraction.Basic
import FeatureAtlas.Proofs.Comment.Block
import FeatureAtlas.Proofs.Comment.Header

/-!
# Items from the first line of code on

Every block behind the start of the code gives its item, one after the other. The first line of code is
usually where the code starts. But the search for the start may leave a comment in front of that line at the
end of a later comment, or prefer a more telling keyword below it; the blocks in between then count for the
header, which gives at most one item.
-/

namespace FeatureAtlas.Extraction

open Comment

variable {source path : String}

/-- The items of the blocks from an offset on, made with the metadata of the file. -/
def itemsFrom (source path : String) (start : Nat) : List Item :=
  bodyItems source (Projection.normalize path) start (ofSource source path).metadata

/-- The items of the blocks from an offset on, up to another offset. -/
def itemsBetween (source path : String) (start stop : Nat) : List Item :=
  ((blocks source).filter fun b ↦ start ≤ b.start && b.start < stop).filterMap fun b ↦
    item? b.text (Projection.normalize path) (Declaration.itemName? (textFrom source b.stop))
      (ofSource source path).metadata

/-- The item of the whole file. -/
def fileItem? (source path : String) : Option Item :=
  headerItem? source (Projection.normalize path)
    (firstBlock? (String.ofList (source.toList.take (codeStart source))))
    (ofSource source path).metadata

theorem items_ofSource (source path : String) :
    (ofSource source path).items
      = (fileItem? source path).toList ++ itemsFrom source path (codeStart source) := by
  rw [fileItem?, itemsFrom, ofSource]

theorem itemsFrom_eq_append {start stop : Nat} (h : start ≤ stop) :
    itemsFrom source path start
      = itemsBetween source path start stop ++ itemsFrom source path stop := by
  rw [itemsFrom, bodyItems, filter_le_start source h, List.filterMap_append]
  rfl

theorem itemsBetween_eq_nil {start stop : Nat} (h : stop ≤ start) :
    itemsBetween source path start stop = [] := by
  have hnone : (blocks source).filter (fun b ↦ start ≤ b.start && b.start < stop) = [] := by
    refine List.filter_eq_nil_iff.mpr fun b _ ↦ ?_
    simp only [Bool.and_eq_true, decide_eq_true_iff]
    omega
  rw [itemsBetween, hnone, List.filterMap_nil]

theorem append_suffix_append_iff {α : Type} {l l' r : List α} : l ++ r <:+ l' ++ r ↔ l <:+ l' := by
  rw [← List.reverse_prefix, ← List.reverse_prefix, List.reverse_append, List.reverse_append,
    List.prefix_append_right_inj]

theorem suffix_toList_iff {α : Type} {l : List α} {o : Option α} :
    l <:+ o.toList ↔ l = [] ∨ l = o.toList := by
  cases o with
  | none => simp
  | some x => rw [Option.toList_some, List.suffix_cons_iff, List.suffix_nil, or_comm]

/-- The items from an offset on end the items of the file exactly if no item is made before the start of the
code, or the one that is made is the item of the whole file. -/
theorem itemsFrom_suffix_iff (source path : String) (start : Nat) :
    itemsFrom source path start <:+ (ofSource source path).items ↔
      itemsBetween source path start (codeStart source) = [] ∨
        itemsBetween source path start (codeStart source) = (fileItem? source path).toList := by
  rw [items_ofSource]
  rcases Nat.le_total (codeStart source) start with h | h
  · rw [itemsBetween_eq_nil h, itemsFrom_eq_append h, ← List.append_assoc]
    exact iff_of_true (List.suffix_append _ _) (.inl rfl)
  · rw [itemsFrom_eq_append h, append_suffix_append_iff, suffix_toList_iff]

/-- **Which blocks from the first line of code on give their items.** The items of these blocks, one for each
block that declares one and in the order of the source, end the items of the file exactly if no item is made
between the first line of code and the start of the code, or the one that is made is the item of the whole
file. Code starts where a line begins with a keyword that is as telling as any that begins a line; and it
starts at the first line of code, so that no item is lost, if that line begins with such a keyword and what
is in front of it cannot mislead the search. -/
theorem items_from_first_code_line {p : Nat} (hp : firstCodeLine? source = some p) (path : String) :
    (itemsFrom source path p <:+ (ofSource source path).items ↔
      itemsBetween source path p (codeStart source) = [] ∨
        itemsBetween source path p (codeStart source) = (fileItem? source path).toList) ∧
    ∃ more keywords less, codeKeywords = more ++ keywords :: less ∧
      BeginsLine keywords source.toList (codeStart source) ∧
      (∀ other ∈ more, ∀ q, ¬ BeginsLine other source.toList q) ∧
      (BeginsLine keywords source.toList p → Clear keywords source.toList p →
        codeStart source = p ∧ itemsFrom source path p <:+ (ofSource source path).items) := by
  refine ⟨itemsFrom_suffix_iff source path p, ?_⟩
  obtain ⟨first, hfirst, hline⟩ := beginsLine_of_firstCodeLine? hp
  obtain ⟨more, keywords, less, hsplit, hfound, hmore⟩ := exists_codeStart ⟨first, hfirst, p, hline⟩
  refine ⟨more, keywords, less, hsplit, keywordBelow?_sound [] (fun _ ↦ .start) hfound, hmore, ?_⟩
  intro hkeyword hclear
  have hstart := codeStart_of_clear hsplit hmore hclear hkeyword
  refine ⟨hstart, (itemsFrom_suffix_iff source path p).mpr (.inl ?_)⟩
  exact itemsBetween_eq_nil (Nat.le_of_eq hstart)

/-- A directive and a header in front of the first line of code, and an item behind it. -/
theorem items_from_first_code_line_directive :
    let source := "'use client';\n/** @feature X */\nexport const a = 1;\n" ++
      "/** @component B */\nconst B = 1;\n"
    firstCodeLine? source = some 32 ∧
      (itemsFrom source "src/a.ts" 32).map (fun i ↦ (i.name, i.feature)) = [("B", some "X")] ∧
      itemsFrom source "src/a.ts" 32 <:+ (ofSource source "src/a.ts").items := by
  intro source
  have hp : firstCodeLine? source = some 32 := by decide +kernel
  refine ⟨hp, by decide +kernel, ?_⟩
  obtain ⟨hiff, -⟩ := items_from_first_code_line hp "src/a.ts"
  exact hiff.mpr (.inl (by decide +kernel))

/-- A header in front of a directive: the search leaves the header at the end of the last comment, and both
items in between are lost. -/
theorem header_before_directive_loses_items :
    let source := "/** @feature X */\n'use client';\nexport const a = 1;\n" ++
      "/** @component B */\nconst B = 1;\n/** @component C */\nexport const C = 2;\n"
    firstCodeLine? source = some 32 ∧
      (itemsFrom source "src/a.ts" 32).map (·.name) = ["B", "C"] ∧
      codeStart source = 105 ∧ (ofSource source "src/a.ts").items = [] ∧
      ¬ itemsFrom source "src/a.ts" 32 <:+ (ofSource source "src/a.ts").items := by
  decide +kernel

end FeatureAtlas.Extraction
