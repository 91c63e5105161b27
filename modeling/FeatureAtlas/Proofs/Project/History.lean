import FeatureAtlas.Proofs.Project.ModuleImport
import FeatureAtlas.Proofs.Project.Session

/-!
# What a project answers in a session

By induction on the session, the log tells what every file has become (`Tracks`): a question is refused if
the file was released before any question of its kind was answered, and otherwise answered from the first
reading of the file. Before a file is there, nothing in the log is about it: it could not be asked or released,
and a close would have kept it from being read.
-/

namespace FeatureAtlas.SourceProject

/-! ## What every file has become -/

/-- What the file at a path has become after a log, if it was read with the findings `s`. -/
structure Tracks (path : String) (log : List Entry) (s : SyntaxFindings) (f : SourceFile) : Prop where
  at_path : f.path = path
  shows : f.ShowsOnly s
  /-- It has kept the answers that were given. -/
  kept_iff : ∀ kind, f.Kept kind ↔ ∃ entry ∈ log, Answers path kind entry
  /-- It refuses the questions that it was released before. -/
  refuses_iff : ∀ kind, (f.released = true ∧ ¬f.Kept kind) ↔ ReleasedFirst path kind log

theorem Tracks.advance {path : String} {log : List Entry} {entry : Entry} {s : SyntaxFindings}
    {f g : SourceFile} (h : Tracks path log s f) (hadvances : Advances path entry s f g) :
    Tracks path (log ++ [entry]) s g where
  at_path := hadvances.same_path.trans h.at_path
  shows := hadvances.shows
  kept_iff kind := by simp [hadvances.kept_iff, h.kept_iff, or_and_right, exists_or]
  refuses_iff kind := by
    have hkept : f.Kept kind ↔ ∃ entry ∈ log, Answers path kind entry := h.kept_iff kind
    have hnew : (∀ earlier ∈ log, ¬Answers path kind earlier) ↔ ¬f.Kept kind := by
      rw [hkept]
      push Not
      rfl
    rw [releasedFirst_append_singleton, ← h.refuses_iff, hnew, hadvances.released_iff, hadvances.kept_iff]
    constructor
    · rintro ⟨hreleased | hreleases, hnot⟩
      · exact .inl ⟨hreleased, fun h ↦ hnot (.inl h)⟩
      · exact .inr ⟨hreleases, fun h ↦ hnot (.inl h)⟩
    · rintro (⟨hreleased, hnot⟩ | ⟨hreleases, hnot⟩)
      · -- a file that refuses the kind does not answer it now
        refine ⟨.inl hreleased, ?_⟩
        rintro (hkept | hanswers)
        · exact hnot hkept
        · exact hnot (hadvances.able kind hanswers hreleased)
      · -- an entry that releases the file answers nothing
        refine ⟨.inr hreleases, ?_⟩
        rintro (hkept | hanswers)
        · exact hnot hkept
        · exact not_answers_of_releases hreleases kind hanswers

/-- A file that is read now was not there before. -/
theorem tracks_of_fresh {path : String} {log : List Entry} {f : SourceFile} (hfresh : f.Fresh)
    (hpath : f.path = path) (hlog : ∀ entry ∈ log, Unconcerned path entry) :
    Tracks path log f.findings f where
  at_path := hpath
  shows := hfresh.showsOnly
  kept_iff kind := by
    refine ⟨fun h ↦ absurd h (hfresh.not_kept kind), ?_⟩
    rintro ⟨entry, hentry, hanswers⟩
    exact absurd hanswers ((hlog entry hentry).2 kind)
  refuses_iff kind := by
    refine ⟨fun h ↦ ?_, ?_⟩
    · simp [hfresh.not_released] at h
    · rintro ⟨before, entry, after, rfl, hreleases, -⟩
      exact absurd hreleases (hlog entry (by simp)).1

/-- How a session that started with the project `p` stands after operations. -/
structure Follows (p : SourceProject) (ops : List Operation) (state : SourceProject × List Entry) :
    Prop where
  root : state.1.root = p.root
  closed : state.1.closed = ops.any Operation.closes
  keys : state.1.files.NodupKeys
  known : ∀ path f, state.1.files.lookup path = some f →
    ∃ first, p.firstReading? ops path = some first ∧ Tracks path state.2 first.findings f
  unknown : ∀ path, state.1.files.lookup path = none → p.firstReading? ops path = none ∧
    (state.1.closed = false → ∀ entry ∈ state.2, Unconcerned path entry)

/-- The log goes on with an operation that is not about a path. -/
theorem unconcerned_append {path : String} {log : List Entry} {entry : Entry}
    (h : ∀ earlier ∈ log, Unconcerned path earlier) (hentry : Unconcerned path entry) :
    ∀ earlier ∈ log ++ [entry], Unconcerned path earlier := by
  intro earlier hearlier
  rcases List.mem_append.mp hearlier with hearlier | hlast
  · exact h earlier hearlier
  · rw [List.mem_singleton.mp hlast]
    exact hentry

theorem Follows.record {p : SourceProject} {ops : List Operation} {state : SourceProject × List Entry}
    (h : Follows p ops state) (op : Operation) : Follows p (ops ++ [op]) (record state op) := by
  have hstep := performs h.keys op
  have hread (path : String) : p.firstReading? (ops ++ [op]) path = (p.firstReading? ops path).or
      (if state.1.closed then none else op.reading? state.1 path) := by
    rw [firstReading?_append_singleton, h.closed, Operation.reading?_congr h.root]
  refine ⟨hstep.root.trans h.root, ?_, hstep.keys, ?_, ?_⟩
  · rw [SourceProject.record, hstep.closed, h.closed, List.any_append, List.any_cons, List.any_nil,
      Bool.or_false]
  · intro path g hg
    cases hf : state.1.files.lookup path with
    | some f =>
      obtain ⟨first, hfirst, htracks⟩ := h.known path f hf
      obtain ⟨g', hg', hadvances⟩ := hstep.known path f first.findings hf htracks.shows
      obtain rfl : g' = g := Option.some.inj (hg'.symm.trans hg)
      exact ⟨first, by rw [hread, hfirst, Option.some_or], htracks.advance hadvances⟩
    | none =>
      -- the operation has read the file, so the project is open and nothing before was about the file
      obtain ⟨hwas, hopen, hnew⟩ := hstep.new hf hg
      obtain ⟨hnone, hunconcerned⟩ := h.unknown path hf
      obtain ⟨hfresh, hpath⟩ := Operation.reading?_eq_some hnew
      have hlog := unconcerned_append (hunconcerned hwas) (hstep.unconcerned_of_open hf hopen)
      refine ⟨g, ?_, tracks_of_fresh hfresh hpath hlog⟩
      rw [hread, hnone, hwas, if_neg Bool.false_ne_true, hnew, Option.none_or]
  · intro path hg
    have hf : state.1.files.lookup path = none := by
      -- a file that was there would still be
      rw [Option.eq_none_iff_forall_ne_some]
      intro f hf
      obtain ⟨first, -, htracks⟩ := h.known path f hf
      obtain ⟨g, hg', -⟩ := hstep.known path f first.findings hf htracks.shows
      cases hg'.symm.trans hg
    obtain ⟨hnone, hunconcerned⟩ := h.unknown path hf
    have hnew := (hstep.unknown path hf).symm.trans hg
    refine ⟨by rw [hread, hnone, hnew, Option.none_or], fun hopen ↦ ?_⟩
    have hwas : state.1.closed = false := (Bool.or_eq_false_iff.mp (hstep.closed.symm.trans hopen)).1
    exact unconcerned_append (hunconcerned hwas) (hstep.unconcerned_of_open hf hopen)

/-- **What any operations do**, to a project without files. -/
theorem follows_run {p : SourceProject} (hopen : p.closed = false) (hfiles : p.files = [])
    (ops : List Operation) : Follows p ops (p.run ops) := by
  induction ops using List.reverseRecOn with
  | nil =>
    refine ⟨rfl, hopen, ?_, ?_, fun path _ ↦ ⟨rfl, fun _ entry hentry ↦ absurd hentry List.not_mem_nil⟩⟩
    · rw [run, List.foldl_nil, hfiles]
      exact List.nodup_nil
    · intro path f hf
      rw [run, List.foldl_nil, hfiles] at hf
      cases hf
  | append_singleton ops op ih =>
    rw [run_append_singleton]
    exact ih.record op

/-! ## What a session can rely on -/

/-- An operation adds a path as the disk is then. -/
def Operation.Adds (t : FileNode) (target : Path) : Operation → Prop
  | .add disk path => disk = t ∧ path = target
  | .addAll disk paths => disk = t ∧ target ∈ paths
  | _ => False

/-- The first reading is that of a text on the disk, by an operation that adds its path. -/
theorem exists_text_of_firstReading? {p : SourceProject} {ops : List Operation} {relative : String}
    {first : SourceFile} (h : p.firstReading? ops relative = some first) :
    ∃ op ∈ ops, ∃ t target source, op.Adds t target ∧ p.relativePath target = relative ∧
      t.readRawText p.root (p.absolutePath target) = .ok source ∧
      first.findings = .ofSource source
        (SyntaxFindings.markupSuffixes.contains (p.absolutePath target).suffix) := by
  have hof {t : FileNode} {target : Path} (hread : p.readingOf? t relative target = some first) :
      p.relativePath target = relative ∧
        ∃ source, t.readRawText p.root (p.absolutePath target) = .ok source ∧
          first.findings = .ofSource source
            (SyntaxFindings.markupSuffixes.contains (p.absolutePath target).suffix) := by
    obtain ⟨hread, hpath⟩ := readingOf?_eq_some.mp hread
    refine ⟨(path_of_readFile hread).symm.trans hpath, ?_⟩
    cases hsource : t.readRawText p.root (p.absolutePath target) with
    | error e =>
      rw [readFile, hsource] at hread
      cases hread
    | ok source =>
      rw [readFile_of_text hsource] at hread
      cases hread
      exact ⟨source, rfl, rfl⟩
  obtain ⟨op, hop, hread⟩ := List.exists_of_findSome?_eq_some h
  refine ⟨op, (List.takeWhile_prefix _).subset hop, ?_⟩
  cases op with
  | add t target =>
    obtain ⟨hpath, source, hsource⟩ := hof hread
    exact ⟨t, target, source, ⟨rfl, rfl⟩, hpath, hsource⟩
  | addAll t targets =>
    obtain ⟨target, htarget, hread⟩ := List.exists_of_findSome?_eq_some hread
    obtain ⟨hpath, source, hsource⟩ := hof hread
    exact ⟨t, target, source, ⟨rfl, htarget⟩, hpath, hsource⟩
  | ask path question => cases hread
  | release path => cases hread
  | close => cases hread

/-- What holds of a project `p` without files after any operations. -/
structure Dependable (p : SourceProject) (past : List Operation) : Prop where
  /-- There is one file at a path at most. -/
  one_file : (p.run past).1.files.NodupKeys
  placed : (p.run past).1.Placed
  /-- A path has a file if it was read once. -/
  known_iff : ∀ path, ((p.run past).1.files.lookup path).isSome = (p.firstReading? past path).isSome
  /-- It was read from the disk by an operation that added it. -/
  read_from : ∀ path first, p.firstReading? past path = some first →
    ∃ op ∈ past, ∃ t target source, op.Adds t target ∧ p.relativePath target = path ∧
      t.readRawText p.root (p.absolutePath target) = .ok source ∧
      first.findings = .ofSource source
        (SyntaxFindings.markupSuffixes.contains (p.absolutePath target).suffix)
  /-- Adding a known path gives its file, whatever is on the disk by now. -/
  add_known : (p.run past).1.closed = false → ∀ t path f,
    (p.run past).1.files.lookup ((p.run past).1.relativePath path) = some f →
      (p.run past).1.perform (.add t path) = ((p.run past).1, .added [f] [])
  /-- Any files that are handed out are those of the project, and no file is replaced by others. -/
  hands_out : ∀ op files events, ((p.run past).1.perform op).2 = .added files events →
    HandsOut (p.run past).1 ((p.run past).1.perform op).1 files
  /-- A question about a file is answered from its first reading, unless the file was released before any
  question of the kind was answered. -/
  ask : ∀ path first, p.firstReading? past path = some first → ∀ question,
    (((p.run past).1.perform (.ask path question)).2 = .answered (question.answer first.findings) ∧
      ¬ReleasedFirst path question.kind (p.run past).2) ∨
    (((p.run past).1.perform (.ask path question)).2 = .refused (.released path) ∧
      ReleasedFirst path question.kind (p.run past).2)
  /-- A closed project shows no files. -/
  no_files : .close ∈ past → (p.run past).1.sourceFiles = []
  /-- Nothing can be added to it. -/
  no_add : .close ∈ past → ∀ t path,
    (p.run past).1.perform (.add t path) = ((p.run past).1, .refused .closed)
  no_addAll : .close ∈ past → ∀ t path paths,
    (p.run past).1.perform (.addAll t (path :: paths)) = ((p.run past).1, .refused .closed)

/-- A tracked file answers or refuses as the log says. -/
theorem Tracks.reply_ask {p : SourceProject} {path : String} {log : List Entry} {s : SyntaxFindings}
    {f : SourceFile} (h : Tracks path log s f) (hf : p.files.lookup path = some f)
    (question : SourceQuestion) :
    ((p.perform (.ask path question)).2 = .answered (question.answer s) ∧
      ¬ReleasedFirst path question.kind log) ∨
    ((p.perform (.ask path question)).2 = .refused (.released path) ∧
      ReleasedFirst path question.kind log) := by
  have houtcome := SourceFile.ask_outcome h.shows question
  rw [← h.refuses_iff]
  cases hask : f.ask question with
  | error e =>
    rw [hask] at houtcome
    cases houtcome with
    | refused released new =>
      rw [perform_ask_of_error hf hask, h.at_path]
      exact .inr ⟨rfl, released, new⟩
  | ok result =>
    rw [hask] at houtcome
    cases houtcome with
    | answered able keeping =>
      rw [perform_ask_of_ok hf hask]
      refine .inl ⟨rfl, ?_⟩
      rintro ⟨released, new⟩
      exact new (able released)

theorem Follows.placed {p : SourceProject} {ops : List Operation} {state : SourceProject × List Entry}
    (h : Follows p ops state) : state.1.Placed := by
  intro path f hf
  obtain ⟨first, -, htracks⟩ := h.known path f hf
  exact htracks.at_path

def Reply.isRefused : Reply → Bool
  | .refused _ => true
  | _ => false

/-- A page is asked for its imports, changed on the disk, added again, released and added once more. -/
def pageSession : List Operation :=
  [.add (Analysis.pageProject "import './lib/setup';") (Path.ofString "app/page.ts"),
    .ask "app/page.ts" .imports,
    .add (Analysis.pageProject "") (Path.ofString "app/page.ts"),
    .release "app/page.ts",
    .add (Analysis.pageProject "") (Path.ofString "./app/page.ts")]

end FeatureAtlas.SourceProject
