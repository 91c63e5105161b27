import FeatureAtlas.Text.Basic

/-!
# The order of texts

`Text.le` is a linear order, so a sort by texts does not depend on the order of what is sorted, as long as
entries that compare equal are equal.
-/

namespace FeatureAtlas.Text

theorem le_iff (a b : String) : le a b = true ↔ a ≤ b := by
  rw [le, Bool.not_eq_true', decide_eq_false_iff_not, String.not_lt]

theorem le_trans (a b c : String) (hab : le a b = true) (hbc : le b c = true) : le a c = true :=
  (le_iff a c).mpr (String.le_trans ((le_iff a b).mp hab) ((le_iff b c).mp hbc))

theorem le_total (a b : String) : (le a b || le b a) = true := by
  rw [Bool.or_eq_true, le_iff, le_iff]
  exact String.le_total a b

theorem le_antisymm {a b : String} (hab : le a b = true) (hba : le b a = true) : a = b :=
  String.le_antisymm ((le_iff a b).mp hab) ((le_iff b a).mp hba)

theorem lt_of_le_of_ne {a b : String} (hle : le a b = true) (hne : a ≠ b) : a < b :=
  String.not_le.mp fun hba ↦ hne (String.le_antisymm ((le_iff a b).mp hle) hba)

section Texts

variable {α : Type} {text : α → String}

theorem pairwise_le_mergeSort (l : List α) :
    (l.mergeSort fun a b ↦ le (text a) (text b)).Pairwise fun a b ↦ le (text a) (text b) :=
  List.pairwise_mergeSort (fun a b c ↦ le_trans (text a) (text b) (text c))
    (fun a b ↦ le_total (text a) (text b)) l

/-- Where all texts are different, sorting by them leaves them strictly ascending. -/
theorem pairwise_lt_mergeSort {l : List α} (h : (l.map text).Nodup) :
    ((l.mergeSort fun a b ↦ le (text a) (text b)).map text).Pairwise (· < ·) := by
  have hle : ((l.mergeSort fun a b ↦ le (text a) (text b)).map text).Pairwise (le · ·) :=
    List.pairwise_map.mpr (pairwise_le_mergeSort l)
  have hne : ((l.mergeSort fun a b ↦ le (text a) (text b)).map text).Nodup :=
    ((List.mergeSort_perm l _).map text).nodup_iff.mpr h
  exact (hle.and hne).imp fun hab ↦ lt_of_le_of_ne hab.1 hab.2

/-- Entries in the order of their texts are in one order, where the text tells them apart. -/
theorem mergeSort_eq_of_perm {l l' : List α} (h : l.Perm l')
    (hinj : ∀ a ∈ l, ∀ b ∈ l, text a = text b → a = b) :
    (l.mergeSort fun a b ↦ le (text a) (text b)) = l'.mergeSort fun a b ↦ le (text a) (text b) := by
  have hperm := (List.mergeSort_perm l fun a b ↦ le (text a) (text b)).trans
    (h.trans (List.mergeSort_perm l' fun a b ↦ le (text a) (text b)).symm)
  refine List.Perm.eq_of_pairwise (fun a b ha hb hab hba ↦ ?_) (pairwise_le_mergeSort l)
    (pairwise_le_mergeSort l') hperm
  have hb' : b ∈ l := h.mem_iff.mpr (List.mem_mergeSort.mp hb)
  exact hinj a (List.mem_mergeSort.mp ha) b hb' (le_antisymm hab hba)

end Texts

theorem pairwise_sort (xs : List String) : (sort xs).Pairwise (le · ·) :=
  List.pairwise_mergeSort le_trans le_total xs

theorem pairwise_lt_sort {xs : List String} (h : xs.Nodup) : (sort xs).Pairwise (· < ·) := by
  have hlt : ((xs.mergeSort fun a b ↦ le (id a) (id b)).map id).Pairwise (· < ·) :=
    pairwise_lt_mergeSort (by rwa [List.map_id])
  rwa [List.map_id] at hlt

theorem sort_eq_of_perm {xs ys : List String} (h : xs.Perm ys) : sort xs = sort ys :=
  mergeSort_eq_of_perm h fun _ _ _ _ heq ↦ heq

theorem sort_of_pairwise {xs : List String} (h : xs.Pairwise (le · ·)) : sort xs = xs :=
  List.mergeSort_of_pairwise h

theorem sort_sort (xs : List String) : sort (sort xs) = sort xs := sort_of_pairwise (pairwise_sort xs)

theorem sort_filter (p : String → Bool) (xs : List String) :
    sort (xs.filter p) = (sort xs).filter p := by
  rw [sort_eq_of_perm ((List.mergeSort_perm xs le).symm.filter p)]
  exact sort_of_pairwise ((pairwise_sort xs).filter p)

end FeatureAtlas.Text
