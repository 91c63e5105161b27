import FeatureAtlas.FileTree.Basic
import FeatureAtlas.Proofs.FileTree.Deletion
import FeatureAtlas.Proofs.Text.Split

/-!
# Places and the paths to them

In a *proper* tree no name is empty, `.` or `..`, and none has a slash in it. The path with the names of a
place then leads to that place, unless one of the names is too long: there is no link on the way, and only
the last name may be one.
-/

namespace FeatureAtlas

/-! ## Names in paths -/

/-- A name that a file can have. -/
structure ProperName (n : String) : Prop where
  ne_empty : n ≠ ""
  ne_dot : n ≠ "."
  ne_up : n ≠ ".."
  no_slash : '/' ∉ n.toList

instance (n : String) : Decidable (ProperName n) :=
  decidable_of_iff (n ≠ "" ∧ n ≠ "." ∧ n ≠ ".." ∧ '/' ∉ n.toList)
    ⟨fun ⟨h₁, h₂, h₃, h₄⟩ ↦ ⟨h₁, h₂, h₃, h₄⟩, fun ⟨h₁, h₂, h₃, h₄⟩ ↦ ⟨h₁, h₂, h₃, h₄⟩⟩

theorem Path.split_join {names : List String} (hne : names ≠ [])
    (h : ∀ n ∈ names, ProperName n) : Text.split '/' (Text.join "/" names) = names :=
  Text.split_join rfl hne fun n hn ↦ (h n hn).no_slash

/-- The path with given names has these names, but for those that stand for the place they are at. -/
theorem Path.ofString_join_filter {names : List String}
    (h : ∀ n ∈ names, n ≠ "" ∧ '/' ∉ n.toList) :
    Path.ofString (Text.join "/" names) = ⟨"", names.filter (· != ".")⟩ := by
  cases names with
  | nil => rfl
  | cons n rest =>
    have hroot : Path.rootOf (Text.join "/" (n :: rest)).toList = "" := by
      obtain ⟨hne, hslash⟩ := h n List.mem_cons_self
      obtain ⟨c, cs, hcs⟩ := List.exists_cons_of_ne_nil (mt String.toList_eq_nil_iff.mp hne)
      have hc : c ≠ '/' := by
        rintro rfl
        exact hslash (hcs ▸ List.mem_cons_self)
      have hfirst : ∃ more, (Text.join "/" (n :: rest)).toList = c :: more := by
        rw [Text.join, String.toList_intercalate]
        cases rest with
        | nil => exact ⟨cs, by simp [List.intercalate, hcs]⟩
        | cons m rest => exact ⟨_, by rw [List.map_cons, List.map_cons,
            List.intercalate_cons_cons, hcs]; rfl⟩
      obtain ⟨more, hmore⟩ := hfirst
      rw [Path.rootOf, hmore, List.takeWhile_cons_of_neg (by simpa using hc)]
      rfl
    rw [Path.ofString, hroot, Text.split_join rfl (List.cons_ne_nil n rest) fun m hm ↦ (h m hm).2]
    congr 1
    refine List.filter_congr fun m hm ↦ ?_
    simp [(h m hm).1]

theorem filter_of_properName {names : List String} (h : ∀ n ∈ names, ProperName n) :
    names.filter (· != ".") = names :=
  List.filter_eq_self.mpr fun n hn ↦ by simpa using (h n hn).ne_dot

/-- The path with given names has these names. -/
theorem Path.ofString_join {names : List String} (h : ∀ n ∈ names, ProperName n) :
    Path.ofString (Text.join "/" names) = ⟨"", names⟩ := by
  rw [Path.ofString_join_filter fun n hn ↦ ⟨(h n hn).ne_empty, (h n hn).no_slash⟩,
    filter_of_properName h]

theorem Path.parent_append_name {p : Path} (h : p.parts ≠ []) :
    p.parent.parts ++ [p.name] = p.parts := by
  rw [Path.parent, Path.name, List.getLast?_eq_some_getLast h]
  exact List.dropLast_concat_getLast h

namespace FileNode

/-! ## Proper trees -/

/-- Every name in the tree is one that a file can have. -/
def Proper (t : FileNode) : Prop := ∀ place n, t.content? (place ++ [n]) ≠ none → ProperName n

theorem Proper.names {t : FileNode} (h : t.Proper) {place : List String}
    (hplace : t.content? place ≠ none) : ∀ n ∈ place, ProperName n := by
  intro n hn
  obtain ⟨before, behind, rfl⟩ := List.append_of_mem hn
  refine h before n ?_
  rw [List.append_cons] at hplace
  cases behind with
  | nil => simpa using hplace
  | cons m behind =>
    rw [content?_of_append (List.cons_ne_nil m behind) hplace]
    exact Option.some_ne_none _

theorem proper_file (bytes : List UInt8) : (file bytes).Proper := by
  intro place n h
  cases place <;> exact absurd rfl h

theorem proper_link (target : String) : (link target).Proper := by
  intro place n h
  cases place <;> exact absurd rfl h

theorem proper_directory {entries : List (String × FileNode)}
    (hnames : ∀ entry ∈ entries, ProperName entry.1) (h : ∀ entry ∈ entries, entry.2.Proper) :
    (directory entries).Proper := by
  intro place n hn
  have hmem : ∀ m child, entries.lookup m = some child → (m, child) ∈ entries := by
    intro m child hlookup
    obtain ⟨before, behind, rfl, -⟩ := List.lookup_eq_some_iff.mp hlookup
    exact List.mem_append_right before List.mem_cons_self
  cases place with
  | nil =>
    rw [List.nil_append, content?_directory_cons] at hn
    cases hlookup : entries.lookup n with
    | none => simp [hlookup] at hn
    | some child => exact hnames _ (hmem n child hlookup)
  | cons m place =>
    rw [List.cons_append, content?_directory_cons] at hn
    cases hlookup : entries.lookup m with
    | none => simp [hlookup] at hn
    | some child =>
      rw [hlookup, Option.bind_some] at hn
      exact h _ (hmem m child hlookup) place n hn

/-- Where a walk to a place stands that has the given content. -/
def arrival (place : List String) : Content → Walk
  | .link target => .linked place (Path.ofString target) []
  | _ => .reached place

/-- A walk along the names of a place comes to that place, unless a name is too long. -/
theorem walk_to_place {t : FileNode} (here : List String) {names : List String} {c : Content}
    (hne : names ≠ []) (hnames : ∀ n ∈ names, ProperName n) (h : t.content? (here ++ names) = some c) :
    t.walk true here names = .error .nameTooLong ∨
      t.walk true here names = .ok (arrival (here ++ names) c) := by
  induction names generalizing here with
  | nil => exact absurd rfl hne
  | cons n names ih =>
    have hhere : t.content? here = some .directory :=
      content?_of_append hne (by rw [h]; exact Option.some_ne_none c)
    rw [walk_cons, stride, if_pos hhere, if_neg (hnames n List.mem_cons_self).ne_up]
    by_cases hlong : nameLimit < n.utf8ByteSize
    · rw [if_pos hlong]
      exact .inl rfl
    · rw [if_neg hlong]
      rw [List.append_cons here n names] at h ⊢
      cases names with
      | nil =>
        rw [List.append_nil] at h ⊢
        rw [h]
        cases c <;> exact .inr rfl
      | cons m names =>
        have hnext : t.content? (here ++ [n]) = some .directory :=
          content?_of_append (List.cons_ne_nil m names) (by rw [h]; exact Option.some_ne_none c)
        rw [hnext]
        exact ih _ (List.cons_ne_nil m names) (fun k hk ↦ hnames k (List.mem_cons_of_mem n hk)) h

/-- A place whose file turns out to be no text leads to a garbled file. -/
theorem leadsToGarbled_of_notText {t : FileNode} {place cwd : List String} {c : Content}
    {e : Utf8Error} (hne : place ≠ []) (hnames : ∀ n ∈ place, ProperName n)
    (hplace : t.content? place = some c)
    (h : t.readRawText cwd (pathOf place) = .error (.notText e)) : t.LeadsToGarbled place := by
  obtain ⟨q, hlocate, hq⟩ := readRawText_notText_iff.mp ⟨e, h⟩
  have hfollow : t.follow true linkLimit [] place = .ok q := hlocate
  obtain hlong | hwalk := walk_to_place [] hne hnames hplace
  · rw [follow_of_error hlong] at hfollow
    cases hfollow
  · rw [List.nil_append] at hwalk
    cases c with
    | link target =>
      rw [linkLimit, follow_of_linked hwalk, List.append_nil] at hfollow
      exact .link target hplace _ q hfollow hq
    | file bytes =>
      rw [follow_of_reached hwalk] at hfollow
      cases hfollow
      exact .file hq
    | directory =>
      rw [follow_of_reached hwalk] at hfollow
      cases hfollow
      exact .file hq

end FileNode

end FeatureAtlas
