import FeatureAtlas.Proofs.Except
import FeatureAtlas.Proofs.FileTree.Removal
import FeatureAtlas.Proofs.FileTree.Writable
import FeatureAtlas.Proofs.Generation.Schedule
import FeatureAtlas.Proofs.Project.Files

/-!
# Files that cannot be read

Whether a collected file is text is asked twice: when its source is read and when it is added to the project
that is analysed. Both ask the same bytes, so an analysis of all collected files is one of the files that
were read. A collected file that is no text then counts for nothing: without it, the sources, the analysis
and so the map and the figures of a generation are the same.
-/

namespace FeatureAtlas

/-! ## Reading -/

namespace FileNode

variable {t t' : FileNode} {gone : List String → Prop}

theorem Without.readText_eq_ok_iff (h : Without t t' gone) {cwd : List String} {p : Path}
    {s : String} : t'.readText cwd p = .ok s ↔ t.readText cwd p = .ok s := by
  rw [readText, readText, map_eq_ok, map_eq_ok]
  simp only [h.readRawText_eq_ok_iff]

theorem Without.readFile_eq_ok_iff (h : Without t t' gone) (p : SourceProject) (path : Path)
    (f : SourceFile) : p.readFile t' path = .ok f ↔ p.readFile t path = .ok f := by
  rw [SourceProject.readFile, SourceProject.readFile, bind_eq_ok, bind_eq_ok]
  simp only [h.readRawText_eq_ok_iff]

theorem Without.source?_eq (h : Without t t' gone) (root : List String) (f : String) :
    (ReadOutcome.ofFile t' root f).source? = (ReadOutcome.ofFile t root f).source? := by
  rw [ReadOutcome.source?, ReadOutcome.source?, ReadOutcome.ofFile, ReadOutcome.ofFile,
    toOption_eq_of_ok_iff fun s ↦ h.readText_eq_ok_iff]

/-- The compiler options are the same, unless their file is no text. -/
theorem Without.load_or (h : Without t t' gone) (root : List String) (tsconfig : Option Path) :
    (∃ e, CompilerOptions.load t root tsconfig = .error (.notText e)) ∨
      CompilerOptions.load t' root tsconfig = CompilerOptions.load t root tsconfig := by
  rw [CompilerOptions.load, CompilerOptions.load]
  generalize CompilerOptions.fileOf root tsconfig = path
  obtain ⟨hpresent, e, htext⟩ | ⟨hpresent, hpresent'⟩ | ⟨hpresent, htext⟩ := h.read_or root path
  · refine .inl ⟨e, ?_⟩
    rw [hpresent, readText, htext]
    rfl
  · refine .inr ?_
    rw [hpresent, hpresent']
  · refine .inr ?_
    rw [hpresent, readText, readText, htext]

end FileNode

theorem ReadOutcome.source?_eq_none_iff {t : FileNode} {root : List String} {f : String} :
    (ofFile t root f).source? = none ↔
      ∃ e, t.readRawText root ((FileNode.pathOf root).join (Path.ofString f)) = .error e := by
  rw [source?, ofFile, FileNode.readText]
  cases t.readRawText root ((FileNode.pathOf root).join (Path.ofString f)) with
  | error e => exact iff_of_true rfl ⟨e, rfl⟩
  | ok s => simp [Except.map, Except.toOption]

namespace SourceText

theorem readInOrder_fst (t : FileNode) (root files : List String) :
    (readInOrder t root files).1 = files.filterMap fun f ↦ (ReadOutcome.ofFile t root f).source? :=
  List.filterMap_map

/-- The paths of the sources are those of the files that can be read. -/
theorem map_path_readInOrder (t : FileNode) (root files : List String) :
    (readInOrder t root files).1.map (·.path)
      = files.filter fun f ↦ (ReadOutcome.ofFile t root f).source?.isSome := by
  rw [readInOrder_fst]
  induction files with
  | nil => rfl
  | cons f files ih =>
    rw [List.filterMap_cons]
    cases hsource : (ReadOutcome.ofFile t root f).source? with
    | none => rw [List.filter_cons_of_neg (by simp [hsource]), ih]
    | some source =>
      have hpath : source.path = f := path_of_source? hsource
      rw [List.filter_cons_of_pos (by simp [hsource]), List.map_cons, ih, hpath]

/-- A tree without garbled files gives the same sources, also where these files are left out. -/
theorem readInOrder_without {t t' : FileNode} {gone : List String → Prop}
    (h : FileNode.Without t t' gone) {root files : List String} {keep : String → Bool}
    (hkeep : ∀ f ∈ files, keep f = false → (ReadOutcome.ofFile t root f).source? = none) :
    (readInOrder t' root (files.filter keep)).1 = (readInOrder t root files).1 := by
  rw [readInOrder_fst, readInOrder_fst]
  induction files with
  | nil => rfl
  | cons f files ih =>
    have hrest := ih fun g hg ↦ hkeep g (List.mem_cons_of_mem f hg)
    cases hf : keep f with
    | true =>
      rw [List.filter_cons_of_pos hf, List.filterMap_cons, List.filterMap_cons, h.source?_eq, hrest]
    | false =>
      rw [List.filter_cons_of_neg (by simp [hf]), List.filterMap_cons,
        hkeep f List.mem_cons_self hf, hrest]

end SourceText

/-! ## Analysing -/

namespace Analysis

theorem map_fst_ofProject (t : FileNode) (o : AnalysisOptions) :
    (ofProject t o).map Prod.fst = (CompilerOptions.load t o.root o.tsconfig).map fun options ↦
      .ofUsages (usagesOf o.patterns options.aliases
        (readTargets t { root := o.root, options } o.targets).1) := by
  rw [ofProject, SourceProject.ofDirectory]
  cases CompilerOptions.load t o.root o.tsconfig <;> rfl

end Analysis

namespace Generation

/-- The files that can be analysed. -/
def analysed (files : List String) : List String :=
  files.filter fun f ↦ analysedSuffixes.any (Text.endsWith f)

theorem map_fst_analyse (t : FileNode) (o : GenerationOptions) (files : List String) :
    (analyse t o files).map Prod.fst =
      (o.patterns.compile.mapError fun (source, e) ↦ .pattern source e).bind fun patterns ↦
        ((Analysis.ofProject t { root := o.root, targets := analysed files, tsconfig := o.tsconfig
                                 patterns }).map Prod.fst).mapError .project := by
  rw [analyse, ← analysed]
  cases o.patterns.compile with
  | error e => rfl
  | ok patterns =>
    dsimp only [Except.mapError, bind, Except.bind]
    cases Analysis.ofProject t _ <;> rfl

/-- Files that cannot be read may be left out of an analysis. -/
theorem map_fst_analyse_filter {t : FileNode} {o : GenerationOptions} {keep : String → Bool}
    {files : List String} (h : ∀ f ∈ files, keep f = false →
      ∃ e, t.readRawText o.root ((FileNode.pathOf o.root).join (Path.ofString f)) = .error e) :
    (analyse t o (files.filter keep)).map Prod.fst = (analyse t o files).map Prod.fst := by
  have hanalysed : analysed (files.filter keep) = (analysed files).filter keep := by
    rw [analysed, analysed, List.filter_filter, List.filter_filter]
    exact List.filter_congr fun f _ ↦ Bool.and_comm _ _
  rw [map_fst_analyse, map_fst_analyse, hanalysed]
  simp only [Analysis.map_fst_ofProject]
  congr 1
  funext patterns
  congr 2
  funext options
  rw [Analysis.readTargets_filter rfl]
  intro f hf hkeep
  obtain ⟨e, he⟩ := h f (List.mem_filter.mp hf).1 hkeep
  refine ⟨e, ?_⟩
  rw [SourceProject.readFile, SourceProject.absolutePath, he]
  rfl

/-- An analysis of all files is one of those that can be read. -/
theorem map_fst_analyse_readInOrder (t : FileNode) (o : GenerationOptions) (files : List String) :
    (analyse t o ((SourceText.readInOrder t o.root files).1.map (·.path))).map Prod.fst
      = (analyse t o files).map Prod.fst := by
  rw [SourceText.map_path_readInOrder]
  refine map_fst_analyse_filter fun f _ hf ↦ ?_
  rw [Option.isSome_eq_false_iff, Option.isNone_iff_eq_none] at hf
  exact ReadOutcome.source?_eq_none_iff.mp hf

/-- Without garbled files an analysis gives the same, unless the compiler options are no text. -/
theorem map_fst_analyse_without {t t' : FileNode} {gone : List String → Prop}
    (h : FileNode.Without t t' gone) (o : GenerationOptions) (files : List String) :
    (∃ e, CompilerOptions.load t o.root o.tsconfig = .error (.notText e) ∧
        (analyse t o files).map Prod.fst = .error (.project (.notText e))) ∨
      (analyse t' o files).map Prod.fst = (analyse t o files).map Prod.fst := by
  have htargets : ∀ options targets,
      (Analysis.readTargets t' { root := o.root, options } targets).1
        = (Analysis.readTargets t { root := o.root, options } targets).1 :=
    fun options targets ↦ Analysis.readTargets_congr rfl (h.readFile_eq_ok_iff _) targets
  rw [map_fst_analyse, map_fst_analyse]
  simp only [Analysis.map_fst_ofProject]
  cases o.patterns.compile with
  | error e => exact .inr rfl
  | ok patterns =>
    obtain ⟨e, he⟩ | hload := h.load_or o.root o.tsconfig
    · rw [he]
      exact .inl ⟨e, rfl, rfl⟩
    · refine .inr ?_
      simp only [hload, htargets]

/-! ## Figures -/

end Generation

/-- What a result says about the project. -/
def GenerationResult.figures (r : GenerationResult) : FeatureMap × Analysis × MergeStats :=
  (r.map, r.analysis, r.stats)

namespace Generation

/-- The figures of sources with their analysis. -/
def figuresOf (now : DateTime) (sources : List SourceText) (analysis : Analysis) :
    Except GenerationError (FeatureMap × Analysis × MergeStats) :=
  let summary := SourceText.extract sources
  let (items, stats) := Merge.runAll summary.items analysis
  match FeatureMap.build? items summary.descriptions summary.types summary.utilities now with
  | none => .error .clock
  | some map => .ok (map, analysis, stats)

theorem figures_build (t : FileNode) (o : GenerationOptions) (now : DateTime) (files : List String)
    (sources : List SourceText) :
    (build t o now files sources).2.map (·.figures) =
      ((analyse t o (sources.map (·.path))).map Prod.fst).bind (figuresOf now sources) := by
  rw [build]
  dsimp only
  cases analyse t o (sources.map (·.path)) with
  | error e => rfl
  | ok result =>
    obtain ⟨analysis, events⟩ := result
    dsimp only [Except.map, Except.bind, figuresOf]
    generalize Merge.runAll (SourceText.extract sources).items analysis = merged
    obtain ⟨items, stats⟩ := merged
    rw [mapAt]
    cases FeatureMap.build? _ _ _ _ now <;> rfl

section

variable {t t' : FileNode} {o : GenerationOptions}

theorem readAll_eager (hlimit : 1 ≤ o.readConcurrency) (t : FileNode) :
    SourceText.readAll (Pool.eager o.readConcurrency.toNat (collected t o).length) t o.root
        o.readConcurrency.toNat (collected t o)
      = SourceText.readInOrder t o.root (collected t o) := by
  rw [readAll_of_completes (completes_eager hlimit o t), collected, FileNode.collect, Text.sort_sort]

/-- A generation that writes nothing gives the figures of its sources, read in order. -/
theorem figures_run (hlimit : 1 ≤ o.readConcurrency) (fresh : String) (now : DateTime)
    (t : FileNode) :
    (run fresh false now o t).result.map (·.figures) =
      ((analyse t o ((SourceText.readInOrder t o.root (collected t o)).1.map (·.path))).map
        Prod.fst).bind (figuresOf now (SourceText.readInOrder t o.root (collected t o)).1) := by
  rw [← figures_build t o now (collected t o), run, runUnder, readAll_eager hlimit]
  dsimp only
  cases (build t o now (collected t o)
    (SourceText.readInOrder t o.root (collected t o)).1).2 <;> rfl

/-- A generation ends well exactly if its map is built and, where it is to be written, can be. -/
theorem run_eq_ok_iff {fresh : String} {write : Bool} {now : DateTime} {r : GenerationResult}
    (fresh' : String) :
    (run fresh write now o t).result = .ok r ↔
      ∃ r₀, (run fresh' false now o t).result = .ok r₀ ∧
        if write then ∃ target, (writeMap fresh o.root o.outputDir r₀.map t).2 = .ok target ∧
          { r₀ with output := some target } = r
        else r₀ = r := by
  rw [run, run, runUnder, runUnder]
  dsimp only
  generalize build t o now (collected t o) _ = built
  obtain ⟨events, result⟩ := built
  cases result with
  | error e => simp
  | ok r₀ =>
    cases write with
    | false => simp
    | true =>
      dsimp only
      simp only [Except.ok.injEq, exists_eq_left', if_true, Bool.false_eq_true, if_false]
      generalize writeMap fresh o.root o.outputDir r₀.map t = written
      obtain ⟨u, ending⟩ := written
      cases ending <;> simp

/-- What a generation writes is what it gives without writing. -/
theorem figures_of_run_ok {fresh : String} {write : Bool} {now : DateTime} {r : GenerationResult}
    (h : (run fresh write now o t).result = .ok r) (fresh' : String) :
    (run fresh' false now o t).result.map (·.figures) = .ok r.figures := by
  obtain ⟨r₀, hr₀, hwritten⟩ := (run_eq_ok_iff fresh').mp h
  rw [hr₀]
  cases write with
  | false =>
    obtain rfl : r₀ = r := hwritten
    rfl
  | true =>
    obtain ⟨target, -, rfl⟩ := hwritten
    rfl

theorem writeMap_eq_ok_iff {fresh : String} {root : List String} {outputDir target : Path}
    {m : FeatureMap} {t : FileNode} :
    (writeMap fresh root outputDir m t).2 = .ok target ↔
      outputDir.join (Path.ofString mapFile) = target ∧
        ∃ made, t.makeDirectories root outputDir = .ok made ∧
          (made.write fresh root (outputDir.join (Path.ofString mapFile))
            (.text m.render "utf-8")).2 = .ok () := by
  rw [writeMap]
  cases t.makeDirectories root outputDir with
  | error e => simp
  | ok made =>
    simp only [Except.ok.injEq, exists_eq_left']
    obtain ⟨u, ending⟩ := made.write fresh root (outputDir.join (Path.ofString mapFile))
      (.text m.render "utf-8")
    cases ending <;> simp

/-- A map that can be written can be written without garbled files. -/
theorem writeMap_without {gone : List String → Prop} (h : FileNode.Without t t' gone)
    {fresh : String} {root : List String} {outputDir target : Path} {m : FeatureMap}
    (hwritten : (writeMap fresh root outputDir m t).2 = .ok target) :
    (writeMap fresh root outputDir m t').2 = .ok target := by
  obtain ⟨htarget, made, hmade, hwrite⟩ := writeMap_eq_ok_iff.mp hwritten
  obtain ⟨made', hmade', hwithout⟩ := h.makeDirectoriesFrom hmade
  exact writeMap_eq_ok_iff.mpr ⟨htarget, made', hmade', hwithout.write_eq_ok hwrite⟩

/-- A generation that ends well still does so on a tree without garbled files that gives the same figures. -/
theorem run_without {gone : List String → Prop} (h : FileNode.Without t t' gone) {fresh : String}
    {write : Bool} {now : DateTime} {r : GenerationResult}
    (hr : (run fresh write now o t).result = .ok r)
    (hfigures : (run fresh false now o t').result.map (·.figures) = .ok r.figures) :
    ∃ r', (run fresh write now o t').result = .ok r' ∧ r'.figures = r.figures := by
  obtain ⟨r₀', hr₀', hsame⟩ := map_eq_ok.mp hfigures
  cases write with
  | false => exact ⟨r₀', hr₀', hsame⟩
  | true =>
    obtain ⟨r₀, -, target, hwritten, rfl⟩ := (run_eq_ok_iff fresh).mp hr
    have hmap : r₀'.map = r₀.map := congrArg Prod.fst hsame
    rw [← hmap] at hwritten
    refine ⟨{ r₀' with output := some target }, (run_eq_ok_iff fresh).mpr ?_, hsame⟩
    exact ⟨r₀', hr₀', target, writeMap_without h hwritten, rfl⟩

theorem analysis_of_figuresOf {now : DateTime} {sources : List SourceText} {analysis : Analysis}
    {figures : FeatureMap × Analysis × MergeStats}
    (h : figuresOf now sources analysis = .ok figures) : figures.2.1 = analysis := by
  rw [figuresOf] at h
  dsimp only at h
  split at h
  · cases h
  · cases h
    rfl

/-- What a generation analyses, the files that it could read, is an analysis of all collected files. -/
theorem analysis_of_run_ok (hlimit : 1 ≤ o.readConcurrency) {fresh : String} {write : Bool}
    {now : DateTime} {r : GenerationResult} (h : (run fresh write now o t).result = .ok r) :
    (analyse t o (collected t o)).map Prod.fst = .ok r.analysis := by
  have hfigures := figures_of_run_ok h fresh
  rw [figures_run hlimit, map_fst_analyse_readInOrder] at hfigures
  obtain ⟨analysis, hanalysis, hfigures⟩ := bind_eq_ok.mp hfigures
  rw [hanalysis]
  exact congrArg Except.ok (analysis_of_figuresOf hfigures).symm

/-! ## Removing files -/

section

variable {gone : List String} (hkeyed : t.Keyed) (hproper : t.Proper)
  (hgone : ∀ f ∈ gone, f ∈ collected t o ∧ t.NotText o.root f)

include hgone in
theorem mem_relativeFiles_of_gone : ∀ f ∈ gone, f ∈ t.relativeFiles o.root := by
  intro f hf
  have hmem : f ∈ t.collect o.root o.included o.excluded := (hgone f hf).1
  rw [FileNode.collect, Text.sort, List.mem_mergeSort] at hmem
  exact (List.mem_filter.mp hmem).1

include hkeyed hproper hgone

theorem without_gone : FileNode.Without t (t.withoutFiles o.root gone)
    (fun place ↦ ∃ f ∈ gone, place = o.root ++ (Path.ofString f).parts) :=
  FileNode.without_withoutFiles hkeyed hproper (mem_relativeFiles_of_gone hgone)
    fun f hf ↦ (hgone f hf).2

theorem readInOrder_gone :
    (SourceText.readInOrder (t.withoutFiles o.root gone) o.root
      (collected (t.withoutFiles o.root gone) o)).1
        = (SourceText.readInOrder t o.root (collected t o)).1 := by
  have hcollected : collected (t.withoutFiles o.root gone) o = (collected t o).filter (· ∉ gone) :=
    FileNode.collect_withoutFiles hkeyed hproper (mem_relativeFiles_of_gone hgone)
      (fun f hf ↦ (hgone f hf).2) o.included o.excluded
  rw [hcollected]
  refine SourceText.readInOrder_without (without_gone hkeyed hproper hgone) fun f _ hf ↦ ?_
  obtain ⟨e, he⟩ := (hgone f (by simpa using hf)).2
  exact ReadOutcome.source?_eq_none_iff.mpr ⟨_, he⟩

theorem figures_run_gone (hlimit : 1 ≤ o.readConcurrency) (fresh fresh' : String) (now : DateTime) :
    (∃ e, CompilerOptions.load t o.root o.tsconfig = .error (.notText e) ∧
        (run fresh false now o t).result = .error (.project (.notText e))) ∨
      (run fresh' false now o (t.withoutFiles o.root gone)).result.map (·.figures)
        = (run fresh false now o t).result.map (·.figures) := by
  have hrun := figures_run hlimit fresh now t
  have hrun' := figures_run hlimit fresh' now (t.withoutFiles o.root gone)
  rw [readInOrder_gone hkeyed hproper hgone] at hrun'
  obtain ⟨e, hload, he⟩ | hsame := map_fst_analyse_without (without_gone hkeyed hproper hgone) o
    ((SourceText.readInOrder t o.root (collected t o)).1.map (·.path))
  · rw [he] at hrun
    exact .inl ⟨e, hload, map_eq_error.mp hrun⟩
  · rw [hrun, hrun', hsame]
    exact .inr rfl

end

end

end Generation

end FeatureAtlas
