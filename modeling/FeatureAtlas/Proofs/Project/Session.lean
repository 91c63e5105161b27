import FeatureAtlas.Proofs.Project.Question
import Mathlib.Data.List.Basic

/-!
# Sessions with a project

A session is any sequence of operations on a project; the files on disk may be others at each operation that
reads. What was replied is logged, so that the log tells which questions were answered and which files were
released.

`Performs` says what one operation does, to the project and to the file at each path: a file stays and
advances as the entry of the log says, and a path without a file gets what the operation reads there. An
operation that adds hands out files of the project, and those that it had are still the same.
-/

namespace FeatureAtlas.SourceProject

/-- What is done with a project. -/
inductive Operation where
  | add (t : FileNode) (path : Path)
  | addAll (t : FileNode) (paths : List Path)
  | ask (path : String) (question : SourceQuestion)
  | release (path : String)
  | close

/-- What an operation gives. -/
inductive Reply where
  | added (files : List SourceFile) (events : List LogEvent)
  | answered (answer : SourceAnswer)
  | done
  /-- There is no file to ask or to release. -/
  | unknown
  | refused (fault : ProjectFault)

/-- Performs an operation; what is refused changes nothing. -/
def perform (p : SourceProject) : Operation → SourceProject × Reply
  | .add t path =>
    match p.add t path with
    | .ok (q, file, events) => (q, .added file.toList events)
    | .error e => (p, .refused e)
  | .addAll t paths =>
    match p.addAll t paths with
    | .ok (q, files, events) => (q, .added files events)
    | .error e => (p, .refused e)
  | .ask path question =>
    match p.ask path question with
    | .ok (some answer, q) => (q, .answered answer)
    | .ok (none, q) => (q, .unknown)
    | .error e => (p, .refused e)
  | .release path =>
    match p.files.lookup path with
    | some _ => (p.release path, .done)
    | none => (p, .unknown)
  | .close => (p.close, .done)

/-- An entry of the log. -/
abbrev Entry := Operation × Reply

/-- Performs an operation and logs it. -/
def record (state : SourceProject × List Entry) (op : Operation) : SourceProject × List Entry :=
  ((state.1.perform op).1, state.2 ++ [(op, (state.1.perform op).2)])

/-- Performs operations in order. -/
def run (p : SourceProject) (ops : List Operation) : SourceProject × List Entry := ops.foldl record (p, [])

theorem run_append_singleton (p : SourceProject) (ops : List Operation) (op : Operation) :
    p.run (ops ++ [op]) = record (p.run ops) op := by
  rw [run, List.foldl_append]
  rfl

/-! ## What a session is about -/

def Operation.closes : Operation → Bool
  | .close => true
  | _ => false

/-- What an operation reads at a relative path where there is no file yet. -/
def Operation.reading? (p : SourceProject) (relative : String) : Operation → Option SourceFile
  | .add t path => p.readingOf? t relative path
  | .addAll t paths => p.reading? t paths relative
  | .ask _ _ => none
  | .release _ => none
  | .close => none

/-- The first that is read at a relative path before the project is closed. -/
def firstReading? (p : SourceProject) (ops : List Operation) (relative : String) : Option SourceFile :=
  (ops.takeWhile (!·.closes)).findSome? (·.reading? p relative)

/-- The file at a path is released, directly or with the whole project. -/
def Releases (path : String) : Entry → Prop
  | (.release released, .done) => released = path
  | (.close, _) => True
  | _ => False

/-- A question of a kind about the file at a path is answered. -/
def Answers (path : String) (kind : QuestionKind) : Entry → Prop
  | (.ask asked question, .answered _) => asked = path ∧ question.kind = kind
  | _ => False

/-- The file at a path was released before any question of a kind was answered. -/
def ReleasedFirst (path : String) (kind : QuestionKind) (log : List Entry) : Prop :=
  ∃ before entry after, log = before ++ entry :: after ∧ Releases path entry ∧
    ∀ earlier ∈ before, ¬Answers path kind earlier

theorem not_answers_of_releases {path : String} {entry : Entry} (h : Releases path entry)
    (kind : QuestionKind) : ¬Answers path kind entry := by
  obtain ⟨op, reply⟩ := entry
  cases op with
  | ask asked question => exact absurd h id
  | _ => exact id

theorem releasedFirst_append_singleton {path : String} {kind : QuestionKind} {log : List Entry}
    {entry : Entry} :
    ReleasedFirst path kind (log ++ [entry]) ↔ ReleasedFirst path kind log ∨
      (Releases path entry ∧ ∀ earlier ∈ log, ¬Answers path kind earlier) := by
  constructor
  · rintro ⟨before, released, after, hlog, hreleases, hbefore⟩
    rcases List.eq_nil_or_concat' after with rfl | ⟨after, last, rfl⟩
    · obtain ⟨rfl, hentry⟩ := List.append_inj' hlog rfl
      obtain rfl : entry = released := by simpa using hentry
      exact .inr ⟨hreleases, hbefore⟩
    · have hsplit : log ++ [entry] = (before ++ released :: after) ++ [last] := by simpa using hlog
      obtain ⟨hlog, -⟩ := List.append_inj' hsplit rfl
      exact .inl ⟨before, released, after, hlog, hreleases, hbefore⟩
  · rintro (⟨before, released, after, rfl, hreleases, hbefore⟩ | ⟨hreleases, hbefore⟩)
    · exact ⟨before, released, after ++ [entry], by simp, hreleases, hbefore⟩
    · exact ⟨log, entry, [], rfl, hreleases, hbefore⟩

/-- Reading needs no more of a project than where it is. -/
theorem Operation.reading?_congr {p q : SourceProject} (h : q.root = p.root) (relative : String)
    (op : Operation) : op.reading? q relative = op.reading? p relative := by
  obtain ⟨root, options, files, closed⟩ := p
  obtain ⟨_, options', files', closed'⟩ := q
  cases h
  rfl

/-- Closing reads nothing. -/
theorem Operation.closes_of_reading? {p : SourceProject} {relative : String} {op : Operation}
    {f : SourceFile} (h : op.reading? p relative = some f) : op.closes = false := by
  cases op with
  | close => cases h
  | _ => rfl

/-- What an operation reads is a fresh file at the path. -/
theorem Operation.reading?_eq_some {p : SourceProject} {relative : String} {op : Operation} {f : SourceFile}
    (h : op.reading? p relative = some f) : f.Fresh ∧ f.path = relative := by
  have hof {t : FileNode} {path : Path} (h : p.readingOf? t relative path = some f) :
      f.Fresh ∧ f.path = relative := by
    obtain ⟨hread, hpath⟩ := readingOf?_eq_some.mp h
    exact ⟨fresh_of_readFile hread, hpath⟩
  cases op with
  | add t path => exact hof h
  | addAll t paths =>
    obtain ⟨path, -, hpath⟩ := List.exists_of_findSome?_eq_some h
    exact hof hpath
  | ask path question => cases h
  | release path => cases h
  | close => cases h

theorem firstReading?_append_singleton (p : SourceProject) (ops : List Operation) (op : Operation)
    (relative : String) :
    p.firstReading? (ops ++ [op]) relative = (p.firstReading? ops relative).or
      (if ops.any Operation.closes then none else op.reading? p relative) := by
  induction ops with
  | nil => cases op <;> simp [firstReading?, Operation.closes, Operation.reading?]
  | cons first ops ih =>
    simp only [firstReading?] at ih
    cases hcloses : first.closes with
    | true => simp [firstReading?, hcloses]
    | false =>
      cases hread : first.reading? p relative with
      | some f => simp [firstReading?, hcloses, hread]
      | none => simp [firstReading?, hcloses, hread, ih]

/-! ## One operation -/

/-- What an entry of the log makes of the file at a path, which was read with the findings `s`. -/
structure Advances (path : String) (entry : Entry) (s : SyntaxFindings) (f g : SourceFile) : Prop where
  same_path : g.path = f.path
  shows : g.ShowsOnly s
  released_iff : g.released = true ↔ f.released = true ∨ Releases path entry
  kept_iff : ∀ kind, g.Kept kind ↔ f.Kept kind ∨ Answers path kind entry
  able : ∀ kind, Answers path kind entry → f.released = true → f.Kept kind

/-- A file stays as it is if the entry is not about it. -/
theorem Advances.refl {path : String} {entry : Entry} {s : SyntaxFindings} {f : SourceFile}
    (h : f.ShowsOnly s) (hreleases : ¬Releases path entry) (hanswers : ∀ kind, ¬Answers path kind entry) :
    Advances path entry s f f where
  same_path := rfl
  shows := h
  released_iff := by simp [hreleases]
  kept_iff kind := by simp [hanswers]
  able kind hkind := absurd hkind (hanswers kind)

/-- A file is released by an entry that releases it. -/
theorem Advances.release {path : String} {entry : Entry} {s : SyntaxFindings} {f : SourceFile}
    (h : f.ShowsOnly s) (hreleases : Releases path entry) : Advances path entry s f f.release where
  same_path := rfl
  shows := h.release
  released_iff := by simp [hreleases, SourceFile.release]
  kept_iff kind := by simp [SourceFile.kept_release, not_answers_of_releases hreleases]
  able kind hkind := absurd hkind (not_answers_of_releases hreleases kind)

/-- A file that answers has kept the answers to the questions of this kind. -/
theorem Advances.answered {path : String} {question : SourceQuestion} {answer : SourceAnswer}
    {s : SyntaxFindings} {f g : SourceFile} (able : f.released = true → f.Kept question.kind)
    (h : f.Keeping s question.kind g) :
    Advances path (.ask path question, .answered answer) s f g where
  same_path := h.path
  shows := h.shows
  released_iff := by simp [h.released, Releases]
  kept_iff kind := by simp [h.kept_iff, Answers]
  able := by
    rintro kind ⟨-, rfl⟩
    exact able

/-- An entry of the log is not about the file at a path. -/
def Unconcerned (path : String) (entry : Entry) : Prop :=
  ¬Releases path entry ∧ ∀ kind, ¬Answers path kind entry

/-- What an operation does to a project. -/
structure Performs (p : SourceProject) (op : Operation) (q : SourceProject) (entry : Entry) : Prop where
  root : q.root = p.root
  closed : q.closed = (p.closed || op.closes)
  keys : q.files.NodupKeys
  known : ∀ path f s, p.files.lookup path = some f → f.ShowsOnly s →
    ∃ g, q.files.lookup path = some g ∧ Advances path entry s f g
  unknown : ∀ path, p.files.lookup path = none →
    q.files.lookup path = if p.closed then none else op.reading? p path
  unconcerned : ∀ path, p.files.lookup path = none →
    (∀ kind, ¬Answers path kind entry) ∧ (Releases path entry → q.closed = true)

/-- In an open project nothing is about a file that is not there. -/
theorem Performs.unconcerned_of_open {p q : SourceProject} {op : Operation} {entry : Entry} {path : String}
    (h : Performs p op q entry) (hf : p.files.lookup path = none) (hopen : q.closed = false) :
    Unconcerned path entry := by
  obtain ⟨hanswers, hreleases⟩ := h.unconcerned path hf
  refine ⟨fun hreleased ↦ ?_, hanswers⟩
  have hclosed := hreleases hreleased
  cases hclosed.symm.trans hopen

/-- A file that is new was read by the operation, and the project was open. -/
theorem Performs.new {p q : SourceProject} {op : Operation} {entry : Entry} {path : String} {g : SourceFile}
    (h : Performs p op q entry) (hf : p.files.lookup path = none) (hg : q.files.lookup path = some g) :
    p.closed = false ∧ q.closed = false ∧ op.reading? p path = some g := by
  have hread := (h.unknown path hf).symm.trans hg
  by_cases hclosed : p.closed = true
  · rw [if_pos hclosed] at hread
    cases hread
  · rw [if_neg hclosed] at hread
    have hopen : p.closed = false := by simpa using hclosed
    refine ⟨hopen, ?_, hread⟩
    rw [h.closed, hopen, Operation.closes_of_reading? hread]
    rfl

section

variable {p : SourceProject}

/-- An operation that only adds files. -/
theorem performs_of_added {op : Operation} {reply : Reply} {files : Table SourceFile}
    (hcloses : op.closes = false) (hreleases : ∀ path, ¬Releases path (op, reply))
    (hanswers : ∀ path kind, ¬Answers path kind (op, reply)) (hkeys : files.NodupKeys)
    (hfiles : ∀ path, files.lookup path =
      (p.files.lookup path).or (if p.closed then none else op.reading? p path)) :
    Performs p op { p with files } (op, reply) where
  root := rfl
  closed := by simp [hcloses]
  keys := hkeys
  known path f s hf hshows := by
    refine ⟨f, ?_, .refl hshows (hreleases path) (hanswers path)⟩
    rw [hfiles, hf, Option.some_or]
  unknown path hnone := by rw [hfiles, hnone, Option.none_or]
  unconcerned path _ := ⟨hanswers path, fun h ↦ absurd h (hreleases path)⟩

theorem add_of_closed (hclosed : p.closed = true) (t : FileNode) (path : Path) :
    p.add t path = .error .closed := by
  rw [add, if_pos hclosed]

theorem perform_add_of_closed (hclosed : p.closed = true) (t : FileNode) (path : Path) :
    p.perform (.add t path) = (p, .refused .closed) := by
  rw [perform, add_of_closed hclosed]

theorem perform_addAll_of_closed (hclosed : p.closed = true) (t : FileNode) (path : Path)
    (paths : List Path) : p.perform (.addAll t (path :: paths)) = (p, .refused .closed) := by
  rw [perform, addAll, add_of_closed hclosed]
  rfl

/-- An operation that changes nothing, where nothing could be read. -/
theorem performs_of_unchanged (hkeys : p.files.NodupKeys) {op : Operation} {reply : Reply}
    (hcloses : op.closes = false) (hreleases : ∀ path, ¬Releases path (op, reply))
    (hanswers : ∀ path kind, ¬Answers path kind (op, reply))
    (hread : ∀ path, (if p.closed then none else op.reading? p path) = none) : Performs p op p (op, reply) :=
  performs_of_added hcloses hreleases hanswers hkeys
    fun path ↦ by rw [hread, Option.or_none]

theorem performs_add (hkeys : p.files.NodupKeys) (t : FileNode) (path : Path) :
    Performs p (.add t path) (p.perform (.add t path)).1 (.add t path, (p.perform (.add t path)).2) := by
  by_cases hclosed : p.closed = true
  · rw [perform_add_of_closed hclosed]
    exact performs_of_unchanged hkeys rfl (fun _ ↦ id) (fun _ _ ↦ id) fun _ ↦ if_pos hclosed
  · have hopen : p.closed = false := by simpa using hclosed
    obtain ⟨files, added, events, hadd, hnodup, hfiles⟩ := exists_add (t := t) hopen hkeys path
    rw [perform, hadd]
    refine performs_of_added rfl (fun _ ↦ id) (fun _ _ ↦ id) hnodup fun relative ↦ ?_
    rw [hfiles, if_neg hclosed]
    rfl

theorem performs_addAll (hkeys : p.files.NodupKeys) (t : FileNode) (paths : List Path) :
    Performs p (.addAll t paths) (p.perform (.addAll t paths)).1
      (.addAll t paths, (p.perform (.addAll t paths)).2) := by
  by_cases hclosed : p.closed = true
  · have hsame : (p.perform (.addAll t paths)).1 = p := by
      cases paths with
      | nil => rfl
      | cons path paths => rw [perform_addAll_of_closed hclosed]
    rw [hsame]
    exact performs_of_unchanged hkeys rfl (fun _ ↦ id) (fun _ _ ↦ id) fun _ ↦ if_pos hclosed
  · have hopen : p.closed = false := by simpa using hclosed
    obtain ⟨files, added, events, hadd, hnodup, hfiles⟩ := exists_addAll (t := t) hopen hkeys paths
    rw [perform, hadd]
    refine performs_of_added rfl (fun _ ↦ id) (fun _ _ ↦ id) hnodup fun relative ↦ ?_
    rw [hfiles, if_neg hclosed]
    rfl

theorem perform_ask_of_error {path : String} {f : SourceFile} {question : SourceQuestion}
    {e : ProjectFault} (hf : p.files.lookup path = some f) (hask : f.ask question = .error e) :
    p.perform (.ask path question) = (p, .refused e) := by
  rw [perform, ask_of_known hf, hask]
  rfl

theorem perform_ask_of_ok {path : String} {f g : SourceFile} {question : SourceQuestion}
    {answer : SourceAnswer} (hf : p.files.lookup path = some f) (hask : f.ask question = .ok (answer, g)) :
    p.perform (.ask path question) = ({ p with files := p.files.set path g }, .answered answer) := by
  rw [perform, ask_of_known hf, hask]
  rfl

/-- A question that is not answered changes nothing. -/
theorem performs_of_unanswered (hkeys : p.files.NodupKeys) {path : String} {question : SourceQuestion}
    {reply : Reply} (h : ∀ answer, reply ≠ .answered answer) :
    Performs p (.ask path question) p (.ask path question, reply) := by
  have hanswers : ∀ other kind, ¬Answers other kind (.ask path question, reply) := by
    intro other kind
    cases reply with
    | answered answer => exact absurd rfl (h answer)
    | _ => exact id
  exact performs_of_unchanged hkeys rfl (fun _ ↦ id) hanswers fun _ ↦ ite_self none

/-- A question that is answered changes no file but the one that was asked. -/
theorem performs_of_answered (hkeys : p.files.NodupKeys) {path : String} {f g : SourceFile}
    {question : SourceQuestion} {answer : SourceAnswer} (hf : p.files.lookup path = some f)
    (hask : f.ask question = .ok (answer, g)) :
    Performs p (.ask path question) { p with files := p.files.set path g }
      (.ask path question, .answered answer) where
  root := rfl
  closed := (Bool.or_false p.closed).symm
  keys := hkeys.modify _ _
  known other f' s hf' hshows := by
    have hlookup := Table.lookup_set path g p.files other
    by_cases hother : other = path
    · subst hother
      obtain rfl : f = f' := Option.some.inj (hf.symm.trans hf')
      have houtcome := SourceFile.ask_outcome hshows question
      rw [hask] at houtcome
      cases houtcome with
      | answered able keeping => exact ⟨g, hlookup.trans (if_pos rfl), .answered able keeping⟩
    · refine ⟨f', hlookup.trans ((if_neg hother).trans hf'), .refl hshows id ?_⟩
      intro kind hkind
      exact hother hkind.1.symm
  unknown other hnone := by
    have hother : other ≠ path := by
      rintro rfl
      cases hf.symm.trans hnone
    rw [Operation.reading?, ite_self, ← hnone]
    exact (Table.lookup_set path g p.files other).trans (if_neg hother)
  unconcerned other hnone := by
    have hother : path ≠ other := by
      rintro rfl
      cases hf.symm.trans hnone
    exact ⟨fun kind hkind ↦ hother hkind.1, fun h ↦ absurd h id⟩

theorem performs_ask (hkeys : p.files.NodupKeys) (path : String) (question : SourceQuestion) :
    Performs p (.ask path question) (p.perform (.ask path question)).1
      (.ask path question, (p.perform (.ask path question)).2) := by
  cases hf : p.files.lookup path with
  | none =>
    rw [perform, ask_of_unknown hf]
    exact performs_of_unanswered hkeys fun _ h ↦ by cases h
  | some f =>
    cases hask : f.ask question with
    | error e =>
      rw [perform_ask_of_error hf hask]
      exact performs_of_unanswered hkeys fun _ h ↦ by cases h
    | ok result =>
      rw [perform_ask_of_ok hf hask]
      exact performs_of_answered hkeys hf hask

theorem lookup_release (path other : String) : (p.release path).files.lookup other =
    (p.files.lookup other).map fun f ↦ if other = path then f.release else f := by
  have hentries : (p.release path).files =
      p.files.map fun entry ↦ (entry.1, if entry.1 = path then entry.2.release else entry.2) := by
    refine List.map_congr_left fun entry _ ↦ ?_
    by_cases h : entry.1 = path <;> simp [h]
  rw [hentries]
  exact Table.lookup_map_values (fun key f ↦ if key = path then f.release else f) p.files other

theorem lookup_close (other : String) :
    p.close.files.lookup other = (p.files.lookup other).map SourceFile.release :=
  Table.lookup_map_values (fun _ ↦ SourceFile.release) p.files other

/-- Releasing a file changes no other one. -/
theorem performs_of_released (hkeys : p.files.NodupKeys) {path : String} {f : SourceFile}
    (hf : p.files.lookup path = some f) :
    Performs p (.release path) (p.release path) (.release path, .done) where
  root := rfl
  closed := (Bool.or_false p.closed).symm
  keys := by
    have hsame : (p.release path).files.map Prod.fst = p.files.map Prod.fst := by
      simp only [release, List.map_map]
      refine List.map_congr_left fun entry _ ↦ ?_
      by_cases h : entry.1 = path <;> simp [h]
    rw [Table.NodupKeys, hsame]
    exact hkeys
  known other f' s hf' hshows := by
    refine ⟨_, by rw [lookup_release, hf', Option.map_some], ?_⟩
    by_cases hother : other = path
    · rw [if_pos hother]
      exact .release hshows hother.symm
    · rw [if_neg hother]
      exact .refl hshows (fun h ↦ hother h.symm) fun _ ↦ id
  unknown other hnone := by rw [lookup_release, hnone, Operation.reading?, ite_self, Option.map_none]
  unconcerned other hnone := by
    refine ⟨fun _ ↦ id, fun hreleases ↦ ?_⟩
    obtain rfl : path = other := hreleases
    cases hf.symm.trans hnone

theorem performs_release (hkeys : p.files.NodupKeys) (path : String) :
    Performs p (.release path) (p.perform (.release path)).1
      (.release path, (p.perform (.release path)).2) := by
  cases hf : p.files.lookup path with
  | none =>
    rw [perform, hf]
    exact performs_of_unchanged hkeys rfl (fun _ ↦ id) (fun _ _ ↦ id) fun _ ↦ ite_self none
  | some f =>
    rw [perform, hf]
    exact performs_of_released hkeys hf

theorem performs_close (hkeys : p.files.NodupKeys) :
    Performs p .close (p.perform .close).1 (.close, (p.perform .close).2) where
  root := rfl
  closed := by simp [perform, close, Operation.closes]
  keys := by
    have hsame : p.close.files.map Prod.fst = p.files.map Prod.fst := by
      simp [close, Function.comp_def]
    rw [Table.NodupKeys, perform, hsame]
    exact hkeys
  known path f s hf hshows := by
    refine ⟨f.release, ?_, .release hshows trivial⟩
    rw [perform, lookup_close, hf, Option.map_some]
  unknown path hnone := by
    rw [perform, lookup_close, hnone, Operation.reading?, ite_self, Option.map_none]
  unconcerned path _ := ⟨fun _ ↦ id, fun _ ↦ rfl⟩

/-- **What one operation does.** -/
theorem performs (hkeys : p.files.NodupKeys) (op : Operation) :
    Performs p op (p.perform op).1 (op, (p.perform op).2) := by
  cases op with
  | add t path => exact performs_add hkeys t path
  | addAll t paths => exact performs_addAll hkeys t paths
  | ask path question => exact performs_ask hkeys path question
  | release path => exact performs_release hkeys path
  | close => exact performs_close hkeys

/-! ## Handing out files -/

/-- Every file stands at its own path. -/
def Placed (p : SourceProject) : Prop := ∀ path f, p.files.lookup path = some f → f.path = path

/-- Files that are handed out stand in the project, and those that stood there before still do. -/
structure HandsOut (p q : SourceProject) (files : List SourceFile) : Prop where
  kept : ∀ path f, p.files.lookup path = some f → q.files.lookup path = some f
  stand : ∀ f ∈ files, q.files.lookup f.path = some f

theorem HandsOut.append {q r : SourceProject} {files more : List SourceFile} (h : HandsOut p q files)
    (h' : HandsOut q r more) : HandsOut p r (files ++ more) where
  kept path f hf := h'.kept path f (h.kept path f hf)
  stand f hf := by
    rcases List.mem_append.mp hf with hf | hf
    · exact h'.kept f.path f (h.stand f hf)
    · exact h'.stand f hf

theorem handsOut_add {q : SourceProject} {t : FileNode} {path : Path} {file : Option SourceFile}
    {events : List LogEvent} (hplaced : p.Placed) (h : p.add t path = .ok (q, file, events)) :
    q.Placed ∧ HandsOut p q file.toList := by
  have hopen : p.closed = false := by
    by_contra hclosed
    rw [add_of_closed (by simpa using hclosed)] at h
    cases h
  cases hknown : p.files.lookup (p.relativePath path) with
  | some known =>
    rw [add_of_known hopen hknown] at h
    cases h
    refine ⟨hplaced, fun _ _ hf ↦ hf, fun f hf ↦ ?_⟩
    obtain rfl : f = known := by simpa using hf
    rw [hplaced _ f hknown]
    exact hknown
  | none =>
    cases hread : p.readFile t path with
    | error e =>
      rw [add_of_error hopen hknown hread] at h
      cases h
      exact ⟨hplaced, fun _ _ hf ↦ hf, by simp⟩
    | ok f =>
      rw [add_of_ok hopen hknown hread] at h
      cases h
      have hpath := path_of_readFile hread
      refine ⟨fun other g hg ↦ ?_, fun other g hg ↦ ?_, fun g hg ↦ ?_⟩
      · rw [Table.lookup_set] at hg
        split at hg
        · next hother =>
          cases hg
          exact hpath.trans hother.symm
        · exact hplaced other g hg
      · have hother : other ≠ p.relativePath path := by
          rintro rfl
          cases hknown.symm.trans hg
        exact (Table.lookup_set ..).trans ((if_neg hother).trans hg)
      · obtain rfl : g = f := by simpa using hg
        exact (Table.lookup_set ..).trans (if_pos hpath)

theorem handsOut_addAll {q : SourceProject} {t : FileNode} {paths : List Path} {files : List SourceFile}
    {events : List LogEvent} (hplaced : p.Placed) (h : p.addAll t paths = .ok (q, files, events)) :
    HandsOut p q files := by
  induction paths generalizing p files events with
  | nil =>
    cases h
    exact ⟨fun _ _ hf ↦ hf, by simp⟩
  | cons path paths ih =>
    rw [addAll] at h
    cases hadd : p.add t path with
    | error e =>
      rw [hadd] at h
      cases h
    | ok result =>
      obtain ⟨r, file, first⟩ := result
      rw [hadd] at h
      dsimp only [bind, Except.bind] at h
      cases haddAll : r.addAll t paths with
      | error e =>
        rw [haddAll] at h
        cases h
      | ok result =>
        obtain ⟨r', more, others⟩ := result
        rw [haddAll] at h
        cases h
        obtain ⟨hr, hfirst⟩ := handsOut_add hplaced hadd
        exact hfirst.append (ih hr haddAll)

/-- What an operation hands out. -/
theorem handsOut_perform (hplaced : p.Placed) {op : Operation} {files : List SourceFile}
    {events : List LogEvent} (h : (p.perform op).2 = .added files events) :
    HandsOut p (p.perform op).1 files := by
  cases op with
  | add t path =>
    rw [perform] at h ⊢
    cases hadd : p.add t path with
    | error e => simp [hadd] at h
    | ok result =>
      obtain ⟨q, file, others⟩ := result
      rw [hadd] at h
      cases h
      exact (handsOut_add hplaced hadd).2
  | addAll t paths =>
    rw [perform] at h ⊢
    cases hadd : p.addAll t paths with
    | error e => simp [hadd] at h
    | ok result =>
      obtain ⟨q, added, others⟩ := result
      rw [hadd] at h
      cases h
      exact handsOut_addAll hplaced hadd
  | ask path question =>
    rw [perform] at h
    split at h <;> cases h
  | release path =>
    rw [perform] at h
    split at h <;> cases h
  | close => cases h

end

end FeatureAtlas.SourceProject
