import FeatureAtlas.Import.Resolution
import FeatureAtlas.Proofs.Path.Normal

/-!
# One file under two specifiers

A file of an app can be imported under the alias and by a relative path. Under the alias, the rest of the
specifier is put behind the app directory as it stands. A relative path is put behind the importer's directory
and brought to its normal form: the steps up take away the directories between the app and the importer. Resolved
paths are compared as texts, so it matters that both ways give the same text.
-/

namespace FeatureAtlas.Import

/-- A name in a path that has no separator of either kind in it. -/
structure IsSegment (s : String) : Prop extends ProperName s where
  no_backslash : '\\' ∉ s.toList

instance (s : String) : Decidable (IsSegment s) :=
  decidable_of_iff (ProperName s ∧ '\\' ∉ s.toList) ⟨fun ⟨h, h'⟩ ↦ ⟨h, h'⟩, fun ⟨h, h'⟩ ↦ ⟨h, h'⟩⟩

/-- The front of a relative specifier that leads a number of directories up. -/
def stepsUp : Nat → String
  | 0 => "./"
  | k + 1 => String.join (List.replicate (k + 1) "../")

/-- The names in the front of a relative specifier. -/
def stepNames : Nat → List String
  | 0 => ["."]
  | k + 1 => List.replicate (k + 1) ".."

/-- Without the names that stay at their place, only the steps up are left. -/
theorem filter_stepNames (k : Nat) : (stepNames k).filter (· != ".") = List.replicate k ".." := by
  cases k with
  | zero => rfl
  | succ k => exact List.filter_eq_self.mpr fun n hn ↦ by rw [List.eq_of_mem_replicate hn]; rfl

theorem mem_stepNames {k : Nat} {n : String} (h : n ∈ stepNames k) : n ≠ "" ∧ '/' ∉ n.toList := by
  cases k with
  | zero =>
    obtain rfl := List.mem_singleton.mp h
    decide
  | succ k =>
    rw [List.eq_of_mem_replicate h]
    decide

theorem stepsUp_append_join (k : Nat) {target : List String} (hne : target ≠ []) :
    stepsUp k ++ Text.join "/" target = Text.join "/" (stepNames k ++ target) := by
  -- on the number of steps; no step at all is written with a dot, so that case is not its start
  have hup : ∀ k, String.join (List.replicate k "../") ++ Text.join "/" target
      = Text.join "/" (List.replicate k ".." ++ target) := by
    intro k
    induction k with
    | zero => simp
    | succ k ih =>
      have hrest : List.replicate k ".." ++ target ≠ [] := List.append_ne_nil_of_right_ne_nil _ hne
      obtain ⟨n, names, hnames⟩ := List.exists_cons_of_ne_nil hrest
      rw [List.replicate_succ, List.replicate_succ, String.join_cons, String.append_assoc, ih,
        List.cons_append, hnames, Text.join, Text.join, String.intercalate_cons_cons]
      rfl
  cases k with
  | zero =>
    rw [stepsUp, stepNames, Text.join, Text.join,
      String.intercalate_append_of_ne_nil (List.cons_ne_nil "." []) hne]
    rfl
  | succ k => exact hup (k + 1)

/-- A relative specifier starts with a dot. -/
theorem exists_relative_toList (k : Nat) (rest : String) :
    ∃ more, (stepsUp k ++ rest).toList = '.' :: more := by
  rw [String.toList_append]
  cases k with
  | zero => exact ⟨_, rfl⟩
  | succ k =>
    rw [stepsUp, List.replicate_succ, String.join_cons, String.toList_append]
    exact ⟨_, rfl⟩

/-! ## The importer -/

section

variable {app file : String} {below : List String}

theorem normalize_importer (happ : IsSegment app) (hbelow : ∀ s ∈ below, IsSegment s)
    (hfile : IsSegment file) :
    Projection.normalize (Text.join "/" (["apps", app] ++ below ++ [file]))
      = Text.join "/" (["apps", app] ++ below ++ [file]) := by
  refine Projection.normalize_eq_self ?_ ?_
  · intro hslash
    rcases Text.mem_toList_join hslash with hbetween | ⟨n, hn, hmem⟩
    · exact absurd hbetween (by decide)
    · simp only [List.cons_append, List.nil_append, List.mem_cons, List.mem_append,
        List.not_mem_nil, or_false] at hn
      obtain rfl | rfl | hn | rfl := hn
      · exact absurd hmem (by decide)
      · exact happ.no_backslash hmem
      · exact (hbelow n hn).no_backslash hmem
      · exact hfile.no_backslash hmem
  · rw [Text.join, List.cons_append, List.cons_append, List.cons_append, List.cons_append,
      String.intercalate_cons_cons, String.toList_append, String.toList_append]
    simp

theorem proper_importer (happ : IsSegment app) (hbelow : ∀ s ∈ below, IsSegment s) :
    ∀ n ∈ ["apps", app] ++ below, ProperName n := by
  intro n hn
  simp only [List.cons_append, List.nil_append, List.mem_cons] at hn
  obtain rfl | rfl | hn := hn
  · decide
  · exact happ.toProperName
  · exact (hbelow n hn).toProperName

theorem appDirectory?_importer (happ : IsSegment app) (hbelow : ∀ s ∈ below, IsSegment s)
    (hfile : IsSegment file) :
    Projection.appDirectory? (Text.join "/" (["apps", app] ++ below ++ [file]))
      = some ("apps/" ++ app) := by
  have hproper : ∀ n ∈ ["apps", app] ++ below ++ [file], ProperName n := by
    intro n hn
    rcases List.mem_append.mp hn with hn | hn
    · exact proper_importer happ hbelow n hn
    · exact List.mem_singleton.mp hn ▸ hfile.toProperName
  obtain ⟨n, rest, hrest⟩ :=
    List.exists_cons_of_ne_nil (List.append_ne_nil_of_right_ne_nil below (List.cons_ne_nil file []))
  have hsplit : Text.split '/' (Text.join "/" (["apps", app] ++ below ++ [file]))
      = "apps" :: app :: n :: rest := by
    rw [Path.split_join (by simp) hproper, List.append_assoc, hrest]
    rfl
  rw [Projection.appDirectory?, normalize_importer happ hbelow hfile, hsplit]
  exact if_neg (by simpa using happ.ne_empty)

end

/-! ## Both ways -/

section

variable {app file : String} {below target : List String}

theorem resolve?_alias (happ : IsSegment app) (hbelow : ∀ s ∈ below, IsSegment s)
    (hfile : IsSegment file) (rest : String) :
    resolve? [defaultAlias] (Text.join "/" (["apps", app] ++ below ++ [file])) ("@/" ++ rest)
      = some (withEnding ("apps/" ++ app ++ "/" ++ rest)) := by
  have hafter : ([defaultAlias].findSome? fun a ↦ Text.after? a.toList ("@/" ++ rest).toList)
      = some rest.toList := by
    rw [String.toList_append]
    simp [defaultAlias, Text.after?]
  rw [resolve?, hafter, normalize_importer happ hbelow hfile, appDirectory?_importer happ hbelow hfile]
  simp

/-- The steps up cancel the directories between the app and the importer. -/
theorem normalizeText_relative (happ : IsSegment app) (hbelow : ∀ s ∈ below, IsSegment s)
    (htarget : ∀ s ∈ target, IsSegment s) :
    Path.normalizeText (Text.join "/" (["apps", app] ++ below ++ (stepNames below.length ++ target)))
      = Text.join "/" (["apps", app] ++ target) := by
  have habove : ∀ n ∈ ["apps", app], ProperName n := by
    intro n hn
    exact proper_importer happ hbelow n (List.mem_append_left below hn)
  have hbetween : ∀ n ∈ below, ProperName n := fun n hn ↦ (hbelow n hn).toProperName
  have hrest : ∀ n ∈ target, ProperName n := fun n hn ↦ (htarget n hn).toProperName
  have hnames : ∀ n ∈ ["apps", app] ++ below ++ (stepNames below.length ++ target),
      n ≠ "" ∧ '/' ∉ n.toList := by
    intro n hn
    rcases List.mem_append.mp hn with hn | hn
    · have hproper := proper_importer happ hbelow n hn
      exact ⟨hproper.ne_empty, hproper.no_slash⟩
    · rcases List.mem_append.mp hn with hn | hn
      · exact mem_stepNames hn
      · exact ⟨(hrest n hn).ne_empty, (hrest n hn).no_slash⟩
  rw [Path.normalizeText_join hnames, List.filter_append, List.filter_append, List.filter_append,
    filter_of_properName habove, filter_of_properName hbetween, filter_of_properName hrest,
    filter_stepNames, ← List.append_assoc, Path.normalizeParts_up habove hbetween hrest]
  rfl

theorem resolve?_relative (happ : IsSegment app) (hbelow : ∀ s ∈ below, IsSegment s)
    (hfile : IsSegment file) (hne : target ≠ []) (htarget : ∀ s ∈ target, IsSegment s) :
    resolve? [defaultAlias] (Text.join "/" (["apps", app] ++ below ++ [file]))
        (stepsUp below.length ++ Text.join "/" target)
      = some (withEnding (Text.join "/" (["apps", app] ++ target))) := by
  obtain ⟨more, hmore⟩ := exists_relative_toList below.length (Text.join "/" target)
  have hafter : ([defaultAlias].findSome? fun a ↦
      Text.after? a.toList (stepsUp below.length ++ Text.join "/" target).toList) = none := by
    rw [hmore]
    simp [defaultAlias, Text.after?]
  have hdot : Text.startsWith (stepsUp below.length ++ Text.join "/" target) "." = true := by
    rw [Text.startsWith, hmore]
    rfl
  have hrelative : Text.startsWith (stepsUp below.length ++ Text.join "/" target) "/" = false := by
    rw [Text.startsWith, hmore]
    rfl
  have hproper := proper_importer happ hbelow
  have hnames : stepNames below.length ++ target ≠ [] := List.append_ne_nil_of_right_ne_nil _ hne
  rw [resolve?, hafter, normalize_importer happ hbelow hfile,
    Path.directoryText_join (by simp) hproper hfile.no_slash]
  dsimp only
  rw [hdot, if_pos rfl]
  rw [stepsUp_append_join below.length hne] at hrelative ⊢
  rw [Path.joinText_join (by simp) hproper hnames hrelative,
    normalizeText_relative happ hbelow htarget]

end

/-- **Alias and relative specifiers of one file resolve alike.** For an importer in any directory of an app
and any target below the app directory, both resolve, to the target behind the app directory with a module
ending. -/
theorem resolve?_alias_eq_relative {app file : String} {below target : List String}
    (happ : IsSegment app) (hbelow : ∀ s ∈ below, IsSegment s) (hfile : IsSegment file)
    (hne : target ≠ []) (htarget : ∀ s ∈ target, IsSegment s) :
    let importer := Text.join "/" (["apps", app] ++ below ++ [file])
    let rest := Text.join "/" target
    let path := "apps/" ++ app ++ "/" ++ rest
    let found :=
      if Text.endsWith path ".ts" || Text.endsWith path ".tsx" then path else path ++ ".ts"
    resolve? [defaultAlias] importer ("@/" ++ rest)
        = resolve? [defaultAlias] importer (stepsUp below.length ++ rest) ∧
      resolve? [defaultAlias] importer ("@/" ++ rest) = some found := by
  intro importer rest path found
  have hpath : Text.join "/" (["apps", app] ++ target) = path := by
    rw [Text.join, String.intercalate_append_of_ne_nil (by simp) hne, String.intercalate_cons_cons,
      String.intercalate_singleton]
    rfl
  have halias := resolve?_alias happ hbelow hfile rest
  have hrelative := resolve?_relative happ hbelow hfile hne htarget
  rw [hpath] at hrelative
  exact ⟨halias.trans hrelative.symm, halias⟩

/-- Two directories up from a page of a route group, and under the alias. -/
theorem resolve?_alias_eq_relative_two_up :
    let importer := "apps/web/app/(home)/page.tsx"
    (∀ s ∈ ["web", "app", "(home)", "page.tsx", "lib", "auth.d.ts"], IsSegment s) ∧
      resolve? [defaultAlias] importer "@/lib/auth.d.ts" = some "apps/web/lib/auth.d.ts" ∧
      resolve? [defaultAlias] importer "../../lib/auth.d.ts" = some "apps/web/lib/auth.d.ts" := by
  intro importer
  have hall : ∀ s ∈ ["web", "app", "(home)", "page.tsx", "lib", "auth.d.ts"], IsSegment s := by decide
  obtain ⟨hsame, hfound⟩ := @resolve?_alias_eq_relative "web" "page.tsx" ["app", "(home)"]
    ["lib", "auth.d.ts"] (by decide) (by decide) (by decide) (by decide) (by decide)
  exact ⟨hall, hfound, hsame.symm.trans hfound⟩

end FeatureAtlas.Import
