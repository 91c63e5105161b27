import FeatureAtlas.Project.Analysis
import FeatureAtlas.Proofs.Table

/-!
# The files of a project

Adding files to an open project never fails: a file that cannot be read is skipped, and of targets with one
relative path the first that can be read counts. So the files of a project are known by `reading?`, which
asks the targets in order and mentions no state.
-/

namespace FeatureAtlas.SourceProject

variable {t : FileNode}

theorem readFile_of_text {p : SourceProject} {path : Path} {source : String}
    (h : t.readRawText p.root (p.absolutePath path) = .ok source) :
    p.readFile t path = .ok {
      path := p.relativePath path
      findings := .ofSource source
        (SyntaxFindings.markupSuffixes.contains (p.absolutePath path).suffix) } := by
  rw [readFile, h]
  rfl

theorem path_of_readFile {p : SourceProject} {path : Path} {f : SourceFile}
    (h : p.readFile t path = .ok f) : f.path = p.relativePath path := by
  cases hsource : t.readRawText p.root (p.absolutePath path) with
  | error e =>
    rw [readFile, hsource] at h
    cases h
  | ok source =>
    rw [readFile_of_text hsource] at h
    cases h
    rfl

/-- What one path contributes to the file at a relative path. -/
def readingOf? (t : FileNode) (p : SourceProject) (relative : String) (path : Path) :
    Option SourceFile :=
  if p.relativePath path = relative then (p.readFile t path).toOption else none

/-- The file at a relative path: the first of the paths that can be read there. -/
def reading? (t : FileNode) (p : SourceProject) (paths : List Path) (relative : String) :
    Option SourceFile :=
  paths.findSome? (p.readingOf? t relative)

theorem readingOf?_eq_some {p : SourceProject} {relative : String} {path : Path}
    {f : SourceFile} :
    p.readingOf? t relative path = some f ↔ p.readFile t path = .ok f ∧ f.path = relative := by
  rw [readingOf?]
  constructor
  · intro h
    split at h
    · next hpath =>
      cases hread : p.readFile t path with
      | error e =>
        rw [hread] at h
        cases h
      | ok g =>
        rw [hread] at h
        cases h
        exact ⟨rfl, (path_of_readFile hread).trans hpath⟩
    · cases h
  · rintro ⟨hread, rfl⟩
    rw [if_pos (path_of_readFile hread).symm, hread]
    rfl

/-! ## Adding files -/

theorem add_of_known {p : SourceProject} (hopen : p.closed = false) {path : Path}
    {known : SourceFile} (h : p.files.lookup (p.relativePath path) = some known) :
    p.add t path = .ok (p, some known, []) := by
  simp only [add, hopen, h, Bool.false_eq_true, if_false]

theorem add_of_error {p : SourceProject} (hopen : p.closed = false) {path : Path}
    (h : p.files.lookup (p.relativePath path) = none) {e : ReadFailure}
    (hread : p.readFile t path = .error e) :
    p.add t path = .ok (p, none, [skipped (p.relativePath path) e.message]) := by
  simp only [add, hopen, h, hread, Bool.false_eq_true, if_false]

theorem add_of_ok {p : SourceProject} (hopen : p.closed = false) {path : Path}
    (h : p.files.lookup (p.relativePath path) = none) {f : SourceFile}
    (hread : p.readFile t path = .ok f) :
    p.add t path = .ok ({ p with files := p.files.set (p.relativePath path) f }, some f, []) := by
  simp only [add, hopen, h, hread, Bool.false_eq_true, if_false]

/-- Adding a path to an open project gives the relative path what it had, or else what is read. -/
theorem exists_add {p : SourceProject} (hopen : p.closed = false) (hkeys : p.files.NodupKeys)
    (path : Path) :
    ∃ files added events, p.add t path = .ok ({ p with files }, added, events) ∧
      files.NodupKeys ∧
      ∀ relative, files.lookup relative
        = (p.files.lookup relative).or (p.readingOf? t relative path) := by
  have hother : ∀ relative, relative ≠ p.relativePath path →
      p.readingOf? t relative path = none := fun relative h ↦ if_neg (Ne.symm h)
  cases hknown : p.files.lookup (p.relativePath path) with
  | some known =>
    refine ⟨p.files, _, _, add_of_known hopen hknown, hkeys, fun relative ↦ ?_⟩
    by_cases h : relative = p.relativePath path
    · rw [h, hknown, Option.some_or]
    · rw [hother relative h, Option.or_none]
  | none =>
    cases hread : p.readFile t path with
    | error e =>
      refine ⟨p.files, _, _, add_of_error hopen hknown hread, hkeys, fun relative ↦ ?_⟩
      have hnone : p.readingOf? t relative path = none := by
        rw [readingOf?, hread]
        split <;> rfl
      rw [hnone, Option.or_none]
    | ok f =>
      refine ⟨_, _, _, add_of_ok hopen hknown hread, hkeys.modify _ _, fun relative ↦ ?_⟩
      rw [Table.lookup_set]
      split
      · next h =>
        have hsome : p.readingOf? t relative path = some f :=
          readingOf?_eq_some.mpr ⟨hread, (path_of_readFile hread).trans h.symm⟩
        rw [hsome, h, hknown, Option.none_or]
      · next h => rw [hother relative h, Option.or_none]

theorem exists_addAll {p : SourceProject} (hopen : p.closed = false) (hkeys : p.files.NodupKeys)
    (paths : List Path) :
    ∃ files added events, p.addAll t paths = .ok ({ p with files }, added, events) ∧
      files.NodupKeys ∧
      ∀ relative, files.lookup relative
        = (p.files.lookup relative).or (p.reading? t paths relative) := by
  induction paths generalizing p with
  | nil => exact ⟨p.files, [], [], rfl, hkeys, fun relative ↦ by rw [reading?]; simp⟩
  | cons path paths ih =>
    obtain ⟨files, added, events, hadd, hnodup, hfiles⟩ := exists_add (t := t) hopen hkeys path
    obtain ⟨all, more, moreEvents, haddAll, hallNodup, hall⟩ :=
      ih (p := { p with files }) hopen hnodup
    refine ⟨all, added.toList ++ more, events ++ moreEvents, ?_, hallNodup, fun relative ↦ ?_⟩
    · rw [addAll, hadd]
      simp only [bind, Except.bind, haddAll, pure, Except.pure]
    · -- the project asks the same of a path before and after it has files
      have hsame : ({ p with files } : SourceProject).reading? t paths relative
          = p.reading? t paths relative := rfl
      rw [hall, hfiles, hsame, Option.or_assoc]
      congr 1
      rw [reading?, reading?, List.findSome?_cons]
      cases p.readingOf? t relative path <;> rfl

/-! ## Skipped files -/

/-- The files after a path was added: a path that is known or cannot be read changes nothing. -/
def accept (t : FileNode) (p : SourceProject) (files : Table SourceFile) (path : Path) :
    Table SourceFile :=
  match files.lookup (p.relativePath path), p.readFile t path with
  | none, .ok f => files.set (p.relativePath path) f
  | _, _ => files

theorem accept_of_error {p : SourceProject} {path : Path} {e : ReadFailure}
    (h : p.readFile t path = .error e) (files : Table SourceFile) :
    p.accept t files path = files := by
  rw [accept, h]
  cases files.lookup (p.relativePath path) <;> rfl

/-- Which error there is does not count. -/
theorem accept_congr {t' : FileNode} {p : SourceProject} {path : Path}
    (h : ∀ f, p.readFile t' path = .ok f ↔ p.readFile t path = .ok f) (files : Table SourceFile) :
    p.accept t' files path = p.accept t files path := by
  cases hread : p.readFile t path with
  | ok f => rw [accept, accept, hread, (h f).mpr hread]
  | error e =>
    cases hread' : p.readFile t' path with
    | ok f => cases ((h f).mp hread').symm.trans hread
    | error e' => rw [accept_of_error hread, accept_of_error hread']

theorem exists_add_accept {p : SourceProject} (hopen : p.closed = false) (path : Path) :
    ∃ added events,
      p.add t path = .ok ({ p with files := p.accept t p.files path }, added, events) := by
  cases hknown : p.files.lookup (p.relativePath path) with
  | some known =>
    have hsame : p.accept t p.files path = p.files := by rw [accept, hknown]
    rw [hsame]
    exact ⟨_, _, add_of_known hopen hknown⟩
  | none =>
    cases hread : p.readFile t path with
    | error e =>
      rw [accept_of_error hread]
      exact ⟨_, _, add_of_error hopen hknown hread⟩
    | ok f =>
      have hset : p.accept t p.files path = p.files.set (p.relativePath path) f := by
        rw [accept, hknown, hread]
      rw [hset]
      exact ⟨_, _, add_of_ok hopen hknown hread⟩

theorem exists_addAll_accept {p : SourceProject} (hopen : p.closed = false) (paths : List Path) :
    ∃ added events, p.addAll t paths =
      .ok ({ p with files := paths.foldl (p.accept t) p.files }, added, events) := by
  induction paths generalizing p with
  | nil => exact ⟨[], [], rfl⟩
  | cons path paths ih =>
    obtain ⟨added, events, hadd⟩ := exists_add_accept (t := t) hopen path
    obtain ⟨more, moreEvents, haddAll⟩ := ih (p := { p with files := p.accept t p.files path }) hopen
    refine ⟨added.toList ++ more, events ++ moreEvents, ?_⟩
    rw [addAll, hadd]
    simp only [bind, Except.bind, haddAll, pure, Except.pure]
    rfl

end FeatureAtlas.SourceProject

namespace FeatureAtlas.Analysis

section

variable {t t' : FileNode} {p : SourceProject}

theorem readTargets_fst (hopen : p.closed = false) (targets : List String) :
    (readTargets t p targets).1
      = ((targets.map Path.ofString).foldl (p.accept t) p.files).map Prod.snd := by
  obtain ⟨added, events, hadd⟩ :=
    SourceProject.exists_addAll_accept (t := t) hopen (targets.map Path.ofString)
  rw [readTargets, hadd]

/-- The files of a project do not depend on which error there is. -/
theorem readTargets_congr (hopen : p.closed = false)
    (h : ∀ path f, p.readFile t' path = .ok f ↔ p.readFile t path = .ok f) (targets : List String) :
    (readTargets t' p targets).1 = (readTargets t p targets).1 := by
  have haccept : p.accept t' = p.accept t := by
    funext files path
    exact SourceProject.accept_congr (h path) files
  rw [readTargets_fst hopen, readTargets_fst hopen, haccept]

/-- Targets that cannot be read may as well be left out. -/
theorem readTargets_filter (hopen : p.closed = false) {keep : String → Bool} {targets : List String}
    (h : ∀ f ∈ targets, keep f = false → ∃ e, p.readFile t (Path.ofString f) = .error e) :
    (readTargets t p (targets.filter keep)).1 = (readTargets t p targets).1 := by
  rw [readTargets_fst hopen, readTargets_fst hopen]
  congr 1
  generalize p.files = files
  induction targets generalizing files with
  | nil => rfl
  | cons f targets ih =>
    have hrest := ih fun g hg ↦ h g (List.mem_cons_of_mem f hg)
    cases hkeep : keep f with
    | true =>
      rw [List.filter_cons_of_pos hkeep, List.map_cons, List.map_cons, List.foldl_cons,
        List.foldl_cons, hrest]
    | false =>
      obtain ⟨e, he⟩ := h f List.mem_cons_self hkeep
      rw [List.filter_cons_of_neg (by simp [hkeep]), List.map_cons, List.foldl_cons,
        SourceProject.accept_of_error he, hrest]

end

theorem mem_readTargets {t : FileNode} {p : SourceProject} (hopen : p.closed = false)
    (hempty : p.files = []) {targets : List String} {f : SourceFile} :
    f ∈ (readTargets t p targets).1 ↔ p.reading? t (targets.map Path.ofString) f.path = some f := by
  have hkeys : p.files.NodupKeys := by
    rw [hempty]
    exact List.nodup_nil
  obtain ⟨files, added, events, hadd, hnodup, hfiles⟩ :=
    SourceProject.exists_addAll (t := t) hopen hkeys (targets.map Path.ofString)
  simp only [hempty, List.lookup_nil, Option.none_or] at hfiles
  rw [readTargets, hadd]
  dsimp only
  rw [List.mem_map, ← hfiles]
  constructor
  · rintro ⟨⟨relative, g⟩, hg, rfl⟩
    have hlookup := (Table.lookup_eq_some_iff_mem hnodup).mpr hg
    have hread := hlookup
    rw [hfiles, SourceProject.reading?] at hread
    obtain ⟨path, -, hpath⟩ := List.exists_of_findSome?_eq_some hread
    rw [(SourceProject.readingOf?_eq_some.mp hpath).2]
    exact hlookup
  · intro h
    exact ⟨(f.path, f), (Table.lookup_eq_some_iff_mem hnodup).mp h, rfl⟩

end FeatureAtlas.Analysis
