import FeatureAtlas.Path.Projection
import FeatureAtlas.Proofs.FileTree.Places

/-!
# Steps up and the normal form

The normal form of a path is computed with a stack of names. A proper name is put on top, and `..` takes away
the name on top. So names with as many steps up behind them leave the stack as it was, whatever is on it; this
is the one invariant that the normal form of a path between two files of one app needs.

The text functions are described on texts that are joined from names. There the cut at the last slash and the
cut at every slash are both exact.
-/

namespace FeatureAtlas

namespace Text

theorem mem_toList_join {between : String} {pieces : List String} {c : Char}
    (h : c ∈ (join between pieces).toList) :
    c ∈ between.toList ∨ ∃ piece ∈ pieces, c ∈ piece.toList := by
  rw [join] at h
  induction pieces with
  | nil => simp at h
  | cons piece pieces ih =>
    cases pieces with
    | nil => exact Or.inr ⟨piece, List.mem_cons_self, by simpa using h⟩
    | cons next pieces =>
      rw [String.intercalate_cons_cons, String.toList_append, String.toList_append, List.mem_append,
        List.mem_append] at h
      rcases h with (h | h) | h
      · exact Or.inr ⟨piece, List.mem_cons_self, h⟩
      · exact Or.inl h
      · rcases ih h with hbetween | ⟨other, hother, hc⟩
        · exact Or.inl hbetween
        · exact Or.inr ⟨other, List.mem_cons_of_mem _ hother, hc⟩

theorem replaceChar_of_not_mem {c : Char} {cs : List Char} (h : c ∉ cs) (image : List Char) :
    replaceChar c image cs = cs := by
  induction cs with
  | nil => rfl
  | cons d cs ih =>
    rw [List.mem_cons, not_or] at h
    obtain ⟨hd, hcs⟩ := h
    have hkept : (d == c) = false := beq_eq_false_iff_ne.mpr (Ne.symm hd)
    rw [replaceChar, List.flatMap_cons, ← replaceChar, ih hcs, hkept]
    rfl

end Text

namespace Path

/-! ## The stack of names -/

theorem foldl_pushPart_proper {rooted : Bool} {names : List String} (h : ∀ n ∈ names, ProperName n)
    (stack : List String) : names.foldl (pushPart rooted) stack = names.reverse ++ stack := by
  induction names generalizing stack with
  | nil => rfl
  | cons n names ih =>
    have hn := h n List.mem_cons_self
    have hpush : pushPart rooted stack n = n :: stack := by
      simp [pushPart, hn.ne_empty, hn.ne_dot, hn.ne_up]
    rw [List.foldl_cons, hpush, ih fun m hm ↦ h m (List.mem_cons_of_mem n hm)]
    simp

/-- As many steps up as there are names on top take these names away. -/
theorem foldl_pushPart_up {rooted : Bool} {names : List String} (h : ∀ n ∈ names, ProperName n)
    (stack : List String) :
    (List.replicate names.length "..").foldl (pushPart rooted) (names ++ stack) = stack := by
  induction names with
  | nil => rfl
  | cons n names ih =>
    have hn := (h n List.mem_cons_self).ne_up
    have hpop : pushPart rooted (n :: (names ++ stack)) ".." = names ++ stack := by
      simp [pushPart, hn]
    rw [List.length_cons, List.replicate_succ, List.foldl_cons, List.cons_append, hpop]
    exact ih fun m hm ↦ h m (List.mem_cons_of_mem n hm)

/-- Names below a directory with as many steps up behind them lead back to it. -/
theorem normalizeParts_up {rooted : Bool} {above below target : List String}
    (habove : ∀ n ∈ above, ProperName n) (hbelow : ∀ n ∈ below, ProperName n)
    (htarget : ∀ n ∈ target, ProperName n) :
    normalizeParts rooted (above ++ below ++ List.replicate below.length ".." ++ target)
      = above ++ target := by
  have hreverse : ∀ n ∈ below.reverse, ProperName n := fun n hn ↦ hbelow n (List.mem_reverse.mp hn)
  rw [normalizeParts, List.foldl_append, List.foldl_append, List.foldl_append,
    foldl_pushPart_proper habove, foldl_pushPart_proper hbelow, ← List.length_reverse,
    foldl_pushPart_up hreverse, foldl_pushPart_proper htarget]
  simp

/-! ## Joined names as texts -/

/-- A text joined from names ends in a character that is no slash. -/
theorem exists_last_of_join {names : List String} (hne : names ≠ []) (h : ∀ n ∈ names, ProperName n) :
    ∃ front c, (Text.join "/" names).toList = front ++ [c] ∧ c ≠ '/' := by
  induction names with
  | nil => exact absurd rfl hne
  | cons n names ih =>
    have hn := h n List.mem_cons_self
    cases names with
    | nil =>
      have hchars : n.toList ≠ [] := mt String.toList_eq_nil_iff.mp hn.ne_empty
      refine ⟨n.toList.dropLast, n.toList.getLast hchars, ?_, ?_⟩
      · rw [Text.join, String.intercalate_singleton, List.dropLast_concat_getLast]
      · exact fun hslash ↦ hn.no_slash (hslash ▸ List.getLast_mem hchars)
    | cons m names =>
      obtain ⟨front, c, hfront, hc⟩ :=
        ih (List.cons_ne_nil m names) fun k hk ↦ h k (List.mem_cons_of_mem n hk)
      refine ⟨n.toList ++ '/' :: front, c, ?_, hc⟩
      rw [Text.join] at hfront ⊢
      rw [String.intercalate_cons_cons, String.toList_append, String.toList_append, hfront]
      simp

theorem directoryText_join {names : List String} (hne : names ≠ []) (h : ∀ n ∈ names, ProperName n)
    {file : String} (hfile : '/' ∉ file.toList) :
    directoryText (Text.join "/" (names ++ [file])) = Text.join "/" names := by
  obtain ⟨front, c, hfront, hc⟩ := exists_last_of_join hne h
  -- both cuts are made from the end, so they are followed on the reversed text
  have hreverse : (Text.join "/" (names ++ [file])).toList.reverse
      = file.toList.reverse ++ '/' :: c :: front.reverse := by
    rw [Text.join] at hfront ⊢
    rw [String.intercalate_append_of_ne_nil hne (List.cons_ne_nil file []),
      String.intercalate_singleton, String.toList_append, String.toList_append, hfront]
    simp
  have hname : ∀ d ∈ file.toList.reverse, (d != '/') = true := by
    intro d hd
    rw [bne_iff_ne]
    rintro rfl
    exact hfile (List.mem_reverse.mp hd)
  have hhead : (Text.join "/" (names ++ [file])).toList.reverse.dropWhile (· != '/')
      = '/' :: c :: front.reverse := by
    rw [hreverse, List.dropWhile_append_of_pos hname, List.dropWhile_cons_of_neg (by decide)]
  have hcut : ('/' :: c :: front.reverse).dropWhile (· == '/') = c :: front.reverse := by
    rw [List.dropWhile_cons_of_pos (by decide), List.dropWhile_cons_of_neg (by simpa using hc)]
  have hall : ('/' :: c :: front.reverse).all (· == '/') = false := by simp [hc]
  rw [directoryText, hhead, hall, if_neg Bool.false_ne_true, hcut, List.reverse_cons,
    List.reverse_reverse, ← hfront, String.ofList_toList]

theorem joinText_join {above below : List String} (habove : above ≠ [])
    (hproper : ∀ n ∈ above, ProperName n) (hbelow : below ≠ [])
    (hrelative : Text.startsWith (Text.join "/" below) "/" = false) :
    joinText (Text.join "/" above) (Text.join "/" below) = Text.join "/" (above ++ below) := by
  obtain ⟨front, c, hfront, hc⟩ := exists_last_of_join habove hproper
  have hnonempty : (Text.join "/" above == "") = false := by
    rw [beq_eq_false_iff_ne]
    intro hempty
    rw [hempty] at hfront
    simp at hfront
  have hends : Text.endsWith (Text.join "/" above) "/" = false := by
    rw [Text.endsWith, hfront, ← Bool.not_eq_true, List.isSuffixOf_iff_suffix]
    rintro ⟨rest, hrest⟩
    exact hc (List.singleton_inj.mp (List.append_inj' hrest rfl).2).symm
  rw [joinText, hrelative, hnonempty, hends, Text.join, Text.join, Text.join,
    String.intercalate_append_of_ne_nil habove hbelow]
  rfl

theorem normalizeText_join {names : List String} (h : ∀ n ∈ names, n ≠ "" ∧ '/' ∉ n.toList) :
    normalizeText (Text.join "/" names)
      = toString ⟨"", normalizeParts false (names.filter (· != "."))⟩ := by
  rw [normalizeText, ofString_join_filter h]
  rfl

end Path

/-- A text without backslashes that does not start with a dot is in the form of a project path. -/
theorem Projection.normalize_eq_self {path : String} (hslash : '\\' ∉ path.toList)
    (hdot : path.toList.head? ≠ some '.') : Projection.normalize path = path := by
  rw [Projection.normalize, Text.replaceChar_of_not_mem hslash]
  have hkept : Projection.dropDotSlash path.toList = path.toList := by
    generalize path.toList = cs at hdot
    fun_cases Projection.dropDotSlash cs with
    | case1 rest => simp at hdot
    | case2 => rfl
  rw [hkept, String.ofList_toList]

end FeatureAtlas
