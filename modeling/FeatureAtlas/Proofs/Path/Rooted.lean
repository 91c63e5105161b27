import FeatureAtlas.Proofs.Path.Normal

/-!
# Absolute paths in normal form

Reading drops the parts of a text that carry no meaning, and what is left is read back from the text of the path.
Below a root the normal form has proper names alone: `..` either takes a name away or vanishes. So the text of a
normal form is its own normal form.
-/

namespace FeatureAtlas.Path

/-- A path as it is read: one of three roots, and parts that carry a meaning. -/
structure WellFormed (p : Path) : Prop where
  root : p.root ∈ ["", "/", "//"]
  parts : ∀ n ∈ p.parts, n ≠ "" ∧ n ≠ "." ∧ '/' ∉ n.toList

/-- An absolute path in normal form: a root of one slash or two, and names that are neither empty nor `.` nor
`..`. -/
def IsNormal (s : String) : Prop :=
  ∃ root names, root ∈ ["/", "//"] ∧ (∀ n ∈ names, ProperName n) ∧ s = root ++ Text.join "/" names

/-! ## Reading a path back -/

theorem rootOf_mem (cs : List Char) : rootOf cs ∈ ["", "/", "//"] := by
  rw [rootOf]
  split <;> decide

theorem wellFormed_ofString (s : String) : (ofString s).WellFormed where
  root := rootOf_mem s.toList
  parts := by
    intro n hn
    obtain ⟨hmem, hkept⟩ := List.mem_filter.mp hn
    rw [Bool.and_eq_true, bne_iff_ne, bne_iff_ne] at hkept
    obtain ⟨piece, hpiece, rfl⟩ := List.mem_map.mp hmem
    rw [String.toList_ofList]
    exact ⟨hkept.1, hkept.2, Text.not_mem_of_mem_splitOn hpiece⟩

/-- No slash stands in front of joined names. -/
theorem head?_join {names : List String} (h : ∀ n ∈ names, n ≠ "" ∧ '/' ∉ n.toList) :
    ∀ c ∈ (Text.join "/" names).toList.head?, c ≠ '/' := by
  cases names with
  | nil => exact fun c hc ↦ nomatch hc
  | cons n names =>
    obtain ⟨hne, hslash⟩ := h n List.mem_cons_self
    obtain ⟨d, ds, hds⟩ := List.exists_cons_of_ne_nil (mt String.toList_eq_nil_iff.mp hne)
    have hfirst : (Text.join "/" (n :: names)).toList.head? = some d := by
      rw [Text.join, String.toList_intercalate]
      cases names with
      | nil => simp [List.intercalate, hds]
      | cons m names =>
        rw [List.map_cons, List.map_cons, List.intercalate_cons_cons, hds]
        rfl
    rintro c hc rfl
    rw [hfirst] at hc
    exact hslash (hds ▸ Option.some.inj hc ▸ List.mem_cons_self)

/-- The names behind a root are read back. -/
theorem ofString_root_join {root : String} (hroot : root ∈ ["/", "//"]) {names : List String}
    (h : ∀ n ∈ names, n ≠ "" ∧ n ≠ "." ∧ '/' ∉ n.toList) :
    ofString (root ++ Text.join "/" names) = ⟨root, names⟩ := by
  have hhead := head?_join fun n hn ↦ ⟨(h n hn).1, (h n hn).2.2⟩
  have hstop : (Text.join "/" names).toList.takeWhile (· == '/') = [] := by
    cases hjoin : (Text.join "/" names).toList with
    | nil => rfl
    | cons c cs =>
      refine List.takeWhile_cons_of_neg ?_
      simpa using hhead c (by rw [hjoin]; rfl)
  have hbody : (Text.split '/' (Text.join "/" names)).filter (fun p ↦ p != "" && p != ".") = names := by
    cases names with
    | nil => rfl
    | cons n names =>
      rw [Text.split_join rfl (List.cons_ne_nil n names) fun m hm ↦ (h m hm).2.2]
      exact List.filter_eq_self.mpr fun m hm ↦ by simp [(h m hm).1, (h m hm).2.1]
  have hroots : root = "/" ∨ root = "//" := by simpa using hroot
  rcases hroots with rfl | rfl
  · have hlist : ("/" ++ Text.join "/" names).toList = '/' :: (Text.join "/" names).toList :=
      String.toList_append
    rw [ofString, hlist, rootOf, List.takeWhile_cons_of_pos rfl, hstop, Text.split, hlist,
      Text.splitOn_cons_self, List.map_cons, List.filter_cons_of_neg (by decide), ← Text.split, hbody]
    rfl
  · have hlist : ("//" ++ Text.join "/" names).toList = '/' :: '/' :: (Text.join "/" names).toList :=
      String.toList_append
    rw [ofString, hlist, rootOf, List.takeWhile_cons_of_pos rfl, List.takeWhile_cons_of_pos rfl, hstop,
      Text.split, hlist, Text.splitOn_cons_self, Text.splitOn_cons_self, List.map_cons, List.map_cons,
      List.filter_cons_of_neg (by decide), List.filter_cons_of_neg (by decide), ← Text.split, hbody]
    rfl

/-- The text of an absolute path is read back as the path. -/
theorem ofString_toString {p : Path} (h : p.WellFormed) (habsolute : p.isAbsolute = true) :
    ofString p.toString = p := by
  have hne : p.root ≠ "" := by simpa [isAbsolute] using habsolute
  have hroot : p.root ∈ ["/", "//"] := by simpa [hne] using h.root
  have htext : p.toString = p.root ++ Text.join "/" p.parts := by simp [toString, hne]
  rw [htext, ofString_root_join hroot h.parts]

/-! ## The normal form below a root -/

theorem properName_pushPart {acc : List String} {part : String} (hacc : ∀ n ∈ acc, ProperName n)
    (hpart : '/' ∉ part.toList) : ∀ n ∈ pushPart true acc part, ProperName n := by
  rw [pushPart.eq_def]
  split
  · exact hacc
  · next hkept =>
    have hne : part ≠ "" ∧ part ≠ "." := by simpa [not_or] using hkept
    split
    · next hup => exact List.forall_mem_cons.mpr ⟨⟨hne.1, hne.2, by simpa using hup, hpart⟩, hacc⟩
    · cases acc with
      | nil => exact hacc
      | cons last acc =>
        obtain ⟨hlast, hrest⟩ := List.forall_mem_cons.mp hacc
        dsimp only
        rw [if_neg (by simpa using hlast.ne_up)]
        exact hrest

/-- Below a root all names of the normal form are proper. -/
theorem properName_normalizeParts {parts : List String} (h : ∀ n ∈ parts, '/' ∉ n.toList) :
    ∀ n ∈ normalizeParts true parts, ProperName n := by
  have hfold : ∀ {acc : List String}, (∀ n ∈ acc, ProperName n) →
      ∀ n ∈ parts.foldl (pushPart true) acc, ProperName n := by
    induction parts with
    | nil => exact fun hacc ↦ hacc
    | cons part parts ih =>
      obtain ⟨hpart, hparts⟩ := List.forall_mem_cons.mp h
      exact fun hacc ↦ ih hparts (properName_pushPart hacc hpart)
  exact fun n hn ↦ hfold (List.forall_mem_nil _) n (List.mem_reverse.mp hn)

/-- The normal form of an absolute path's text is normal. -/
theorem isNormal_normalizeText {p : Path} (h : p.WellFormed) (habsolute : p.isAbsolute = true) :
    IsNormal (normalizeText p.toString) := by
  have hne : p.root ≠ "" := by simpa [isAbsolute] using habsolute
  refine ⟨p.root, normalizeParts true p.parts, by simpa [hne] using h.root,
    properName_normalizeParts fun n hn ↦ (h.parts n hn).2.2, ?_⟩
  rw [normalizeText, ofString_toString h habsolute, normalize, habsolute, toString]
  simp [hne]

/-! ## Normal forms -/

section Normal

variable {s : String}

theorem IsNormal.exists_path (h : IsNormal s) : ∃ p : Path, ofString s = p ∧ p.isAbsolute = true ∧
    p.toString = s ∧ p.normalize = p := by
  obtain ⟨root, names, hroot, hnames, rfl⟩ := h
  have hroots : root = "/" ∨ root = "//" := by simpa using hroot
  have hne : root ≠ "" := by
    rcases hroots with rfl | rfl <;> decide
  have habsolute : (⟨root, names⟩ : Path).isAbsolute = true := by simpa [isAbsolute] using hne
  refine ⟨⟨root, names⟩, ofString_root_join hroot fun n hn ↦
    ⟨(hnames n hn).ne_empty, (hnames n hn).ne_dot, (hnames n hn).no_slash⟩, habsolute,
    by simp [toString, hne], ?_⟩
  rw [normalize, habsolute, normalizeParts, foldl_pushPart_proper hnames]
  simp

theorem IsNormal.isAbsolute (h : IsNormal s) : (ofString s).isAbsolute = true := by
  obtain ⟨p, hp, habsolute, -⟩ := h.exists_path
  rwa [hp]

theorem IsNormal.toString_ofString (h : IsNormal s) : (ofString s).toString = s := by
  obtain ⟨p, hp, -, htext, -⟩ := h.exists_path
  rw [hp, htext]

theorem IsNormal.normalizeText_eq (h : IsNormal s) : normalizeText s = s := by
  obtain ⟨p, hp, -, htext, hnormal⟩ := h.exists_path
  rw [normalizeText, hp, hnormal, htext]

theorem IsNormal.ne_empty (h : IsNormal s) : s ≠ "" := by
  rintro rfl
  cases h.isAbsolute

end Normal

end FeatureAtlas.Path
