import Mathlib
import FeatureAtlas.Generation.Basic
import FeatureAtlas.Proofs.Concurrency.Schedule
import FeatureAtlas.Proofs.FileTree.Collect
import FeatureAtlas.Proofs.FileTree.Write

/-!
# Generations under schedules

The files of a project are found in the order of its directories and read in the order of a schedule. Both
orders are gone before anything is extracted: the collected files are sorted, and so are the outcomes of
the reads, whose paths tell them apart. Under every schedule that ends, the sources and the warnings are
those of `readInOrder`, which reads one file after the other, and the rest of a generation asks the tree
only for what trees that hold the same answer alike.
-/

namespace FeatureAtlas

/-! ## Reading -/

namespace SourceText

/-- Reads files one after the other. -/
def readInOrder (t : FileNode) (root : List String) (paths : List String) :
    List SourceText × List LogEvent :=
  let outcomes := paths.map (ReadOutcome.ofFile t root)
  (outcomes.filterMap ReadOutcome.source?, outcomes.filterMap ReadOutcome.warning?)

theorem readPool_eq_fresh (t : FileNode) (root : List String) (limit : Nat) (paths : List String) :
    readPool t root limit paths
      = Pool.fresh limit ((paths.map (ReadOutcome.ofFile t root)).map Except.ok) := by
  rw [readPool, Pool.fresh, List.map_map]
  rfl

/-- The outcomes of reads, sorted, are the reads of the sorted paths, whatever the order in which they
end. -/
theorem sorted_eq_of_perm {t : FileNode} {root paths : List String} {outcomes : List ReadOutcome}
    (h : outcomes.Perm (paths.map (ReadOutcome.ofFile t root))) :
    ReadOutcome.sorted outcomes = (Text.sort paths).map (ReadOutcome.ofFile t root) := by
  have hinj : ∀ a ∈ outcomes, ∀ b ∈ outcomes, a.path = b.path → a = b := by
    intro a ha b hb hpath
    obtain ⟨p, -, rfl⟩ := List.mem_map.mp (h.mem_iff.mp ha)
    obtain ⟨q, -, rfl⟩ := List.mem_map.mp (h.mem_iff.mp hb)
    exact congrArg (ReadOutcome.ofFile t root) hpath
  have hsort := h.trans ((List.mergeSort_perm paths Text.le).symm.map _)
  rw [ReadOutcome.sorted, Text.mergeSort_eq_of_perm hsort hinj]
  exact List.mergeSort_of_pairwise (List.pairwise_map.mpr (Text.pairwise_sort paths))

/-- **A schedule that ends reads what reading in order reads.** -/
theorem readAll_eq_readInOrder {t : FileNode} {root paths : List String} {limit : Nat}
    {schedule : List Pool.Event}
    (hdone : ((readPool t root limit paths).run schedule).isDone = true) :
    readAll schedule t root limit paths = readInOrder t root (Text.sort paths) := by
  rw [readPool_eq_fresh] at hdone
  have hkeeps := (Pool.keeps_fresh limit ((paths.map (ReadOutcome.ofFile t root)).map Except.ok)).run schedule
  have hperm := (hkeeps.outcome_of_values rfl hdone).2
  rw [readAll, readPool_eq_fresh, ofOutcomes, sorted_eq_of_perm hperm, readInOrder]

/-- The eager schedule reads everything under every positive limit. -/
theorem isDone_readPool_eager (t : FileNode) (root : List String) {limit : Nat} (hlimit : 0 < limit)
    (paths : List String) :
    ((readPool t root limit paths).run (Pool.eager limit paths.length)).isDone = true := by
  rw [readPool_eq_fresh, ← List.length_map (ReadOutcome.ofFile t root)]
  exact Pool.isDone_eager hlimit _

theorem path_of_source? {o : ReadOutcome} {source : SourceText} (h : o.source? = some source) :
    source.path = o.path := by
  obtain ⟨text, -, rfl⟩ := Option.map_eq_some_iff.mp h
  rfl

theorem pairwise_readInOrder_sort (t : FileNode) (root paths : List String) :
    (readInOrder t root (Text.sort paths)).1.Pairwise fun a b ↦ Text.le a.path b.path := by
  have houtcomes : ((Text.sort paths).map (ReadOutcome.ofFile t root)).Pairwise
      fun a b ↦ Text.le a.path b.path := List.pairwise_map.mpr (Text.pairwise_sort paths)
  refine houtcomes.filterMap _ ?_
  intro a b hle source hsource source' hsource'
  rw [path_of_source? hsource, path_of_source? hsource']
  exact hle

end SourceText

namespace FileNode

variable {t t' : FileNode}

theorem Same.readInOrder_eq (h : t.Same t') : SourceText.readInOrder t = SourceText.readInOrder t' := by
  have hfile : ReadOutcome.ofFile t = ReadOutcome.ofFile t' := by
    funext root path
    rw [ReadOutcome.ofFile, ReadOutcome.ofFile, h.readText_eq]
  funext root paths
  rw [SourceText.readInOrder, SourceText.readInOrder, hfile]

/-! ## Analysing -/

theorem Same.load_eq (h : t.Same t') : CompilerOptions.load t = CompilerOptions.load t' := by
  funext root tsconfig
  rw [CompilerOptions.load, CompilerOptions.load, h.present_eq, h.readText_eq]

theorem Same.add_eq (h : t.Same t') : SourceProject.add t = SourceProject.add t' := by
  have hread : SourceProject.readFile t = SourceProject.readFile t' := by
    funext p path
    rw [SourceProject.readFile, SourceProject.readFile, h.readRawText_eq]
  funext p path
  rw [SourceProject.add, SourceProject.add, hread]

theorem Same.addAll_eq (h : t.Same t') (p : SourceProject) (paths : List Path) :
    p.addAll t paths = p.addAll t' paths := by
  induction paths generalizing p with
  | nil => rfl
  | cons path rest ih =>
    simp only [SourceProject.addAll, h.add_eq, ih]

theorem Same.ofProject_eq (h : t.Same t') : Analysis.ofProject t = Analysis.ofProject t' := by
  funext o
  simp only [Analysis.ofProject, SourceProject.ofDirectory, Analysis.readTargets, h.load_eq,
    h.addAll_eq]

theorem Same.build_eq (h : t.Same t') : Generation.build t = Generation.build t' := by
  funext o now files sources
  rw [Generation.build, Generation.build, Generation.analyse, Generation.analyse, h.ofProject_eq]

/-! ## Writing -/

theorem Same.writeMap (h : t.Same t') (fresh : String) (root : List String) (outputDir : Path)
    (m : FeatureMap) :
    (Generation.writeMap fresh root outputDir m t).1.Same
        (Generation.writeMap fresh root outputDir m t').1 ∧
      (Generation.writeMap fresh root outputDir m t).2
        = (Generation.writeMap fresh root outputDir m t').2 := by
  rw [Generation.writeMap, Generation.writeMap]
  obtain ⟨e, hl, hr⟩ | ⟨made, made', hl, hr, hmade⟩ :=
    (h.makeDirectories root outputDir).error_or_ok
  · simp only [hl, hr]
    exact ⟨h, trivial⟩
  · simp only [hl, hr]
    obtain ⟨hsame, hresult⟩ := hmade.writeUnder (fun _ ↦ none) fresh root
      (outputDir.join (Path.ofString Generation.mapFile)) (.text m.render "utf-8")
    rw [← FileNode.write, ← FileNode.write] at hsame hresult
    generalize made.write fresh root _ _ = w, made'.write fresh root _ _ = w' at hsame hresult ⊢
    obtain ⟨u, result⟩ := w
    obtain ⟨u', result'⟩ := w'
    obtain rfl : result = result' := hresult
    cases result with
    | error e => exact ⟨hsame, rfl⟩
    | ok _ => exact ⟨hsame, rfl⟩

end FileNode

/-! ## Generations -/

namespace Generation

/-- Runs that report and return the same and leave trees that hold the same. -/
structure Run.Same (r r' : Run) : Prop where
  tree : r.tree.Same r'.tree
  events : r.events = r'.events
  result : r.result = r'.result

/-- A schedule that reads all files that the options select, under a limit. -/
def Completes (schedule : List Pool.Event) (limit : Int) (o : GenerationOptions) (t : FileNode) :
    Prop :=
  ((SourceText.readPool t o.root limit.toNat (collected t o)).run schedule).isDone = true

instance (schedule : List Pool.Event) (limit : Int) (o : GenerationOptions) (t : FileNode) :
    Decidable (Completes schedule limit o t) :=
  inferInstanceAs (Decidable (_ = true))

theorem completes_eager {limit : Int} (hlimit : 1 ≤ limit) (o : GenerationOptions) (t : FileNode) :
    Completes (Pool.eager limit.toNat (collected t o).length) limit o t :=
  SourceText.isDone_readPool_eager t o.root (by omega) _

section

variable {t t' : FileNode} {o : GenerationOptions} {limit limit' : Int} {s s' : List Pool.Event}

theorem collected_eq (h : t.Same t') (hkeyed : t.Keyed) (hkeyed' : t'.Keyed) :
    collected t o = collected t' o := by
  rw [collected, collected, h.collect_eq hkeyed hkeyed']

theorem readAll_of_completes (hs : Completes s limit o t) :
    SourceText.readAll s t o.root limit.toNat (collected t o)
      = SourceText.readInOrder t o.root (Text.sort (collected t o)) :=
  SourceText.readAll_eq_readInOrder hs

/-- The sources and the warnings do not depend on the order of directories and reads. -/
theorem readAll_eq (h : t.Same t') (hkeyed : t.Keyed) (hkeyed' : t'.Keyed)
    (hs : Completes s limit o t) (hs' : Completes s' limit' o t') :
    SourceText.readAll s t o.root limit.toNat (collected t o)
      = SourceText.readAll s' t' o.root limit'.toNat (collected t' o) := by
  rw [readAll_of_completes hs, readAll_of_completes hs', h.readInOrder_eq,
    collected_eq h hkeyed hkeyed']

/-- The end of a generation, with its sources read and its result built. -/
theorem runUnder_same (h : t.Same t') (hkeyed : t.Keyed) (hkeyed' : t'.Keyed)
    (hs : Completes s limit o t) (hs' : Completes s' limit' o t') (fresh : String) (write : Bool)
    (now : DateTime) :
    (runUnder s fresh write now { o with readConcurrency := limit } t).Same
      (runUnder s' fresh write now { o with readConcurrency := limit' } t') := by
  have hread := readAll_eq h hkeyed hkeyed' hs hs'
  have hfiles := collected_eq (o := o) h hkeyed hkeyed'
  rw [hfiles] at hread
  -- The limit is read by the pool alone.
  have hcollected : ∀ k u, collected u { o with readConcurrency := k } = collected u o :=
    fun _ _ ↦ rfl
  have hbuild : ∀ k, build t { o with readConcurrency := k } = build t' o := fun k ↦
    (congrFun h.build_eq { o with readConcurrency := k }).trans rfl
  have hbuild' : ∀ k, build t' { o with readConcurrency := k } = build t' o := fun _ ↦ rfl
  simp only [runUnder, hcollected, hread, hfiles, hbuild, hbuild']
  generalize SourceText.readAll s' t' o.root limit'.toNat (collected t' o) = reads
  generalize build t' o now (collected t' o) reads.1 = built
  obtain ⟨events, result⟩ := built
  cases result with
  | error e => exact ⟨h, rfl, rfl⟩
  | ok r =>
    cases write with
    | false => exact ⟨h, rfl, rfl⟩
    | true =>
      obtain ⟨hsame, hwritten⟩ := h.writeMap fresh o.root o.outputDir r.map
      dsimp only
      generalize writeMap fresh o.root o.outputDir r.map t = w,
        writeMap fresh o.root o.outputDir r.map t' = w' at hsame hwritten ⊢
      obtain ⟨u, written⟩ := w
      obtain ⟨u', written'⟩ := w'
      obtain rfl : written = written' := hwritten
      cases written with
      | error e => exact ⟨hsame, rfl, rfl⟩
      | ok target => exact ⟨hsame, rfl, rfl⟩

end

end Generation

end FeatureAtlas
