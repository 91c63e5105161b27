import FeatureAtlas.Proofs.Project.Files
import Mathlib.Tactic.Common

/-!
# Questions to a file

A file is asked for its imports, or whether a name is rendered or called in it. The answers of one kind are
kept together: the imports are one kind, the rendered and the called names the other.

What a file answers is in the findings `s` that it was read with, as long as all that it still shows and all
that it has kept is in `s`. This is so when it was read, and neither a question nor a release changes it: a
release drops what the file shows, but the questions that it refuses afterwards are exactly those of a kind
that it has not kept.
-/

namespace FeatureAtlas

/-- What is asked about a file. -/
inductive SourceQuestion where
  | imports
  | rendered (name : String)
  | called (name : String)
deriving DecidableEq, Repr

/-- The questions whose answers are kept together. -/
inductive QuestionKind where
  | imports
  | uses
deriving DecidableEq, Repr

/-- The answer to a question. -/
inductive SourceAnswer where
  | imports (declarations : List ImportDeclaration)
  | holds (value : Bool)
deriving DecidableEq, Repr

namespace SourceQuestion

def kind : SourceQuestion → QuestionKind
  | imports => .imports
  | rendered _ => .uses
  | called _ => .uses

/-- The answer that findings give. -/
def answer (s : SyntaxFindings) : SourceQuestion → SourceAnswer
  | imports => .imports s.imports
  | rendered name => .holds (s.isRendered name)
  | called name => .holds (s.isCalled name)

end SourceQuestion

namespace SourceFile

variable {f : SourceFile} {s : SyntaxFindings}

/-- Asks a file a question. -/
def ask (f : SourceFile) : SourceQuestion → Except ProjectFault (SourceAnswer × SourceFile)
  | .imports => do
    let (declarations, f) ← f.askImports
    return (.imports declarations, f)
  | .rendered name => do
    let (value, f) ← f.askUses (·.isRendered name)
    return (.holds value, f)
  | .called name => do
    let (value, f) ← f.askUses (·.isCalled name)
    return (.holds value, f)

/-- A file has kept the answers to the questions of a kind. -/
def Kept (f : SourceFile) : QuestionKind → Prop
  | .imports => f.imports?.isSome = true
  | .uses => f.tags?.isSome = true ∧ f.callees?.isSome = true

/-- All that a file shows and all that it has kept is in these findings. -/
structure ShowsOnly (f : SourceFile) (s : SyntaxFindings) : Prop where
  findings : f.released = false → f.findings = s
  imports : ∀ imports, f.imports? = some imports → imports = s.imports
  tags : ∀ tags, f.tags? = some tags → tags = s.tags
  callees : ∀ callees, f.callees? = some callees → callees = s.callees

/-- What a question of a kind makes of a file: it has kept the answers to this kind. -/
structure Keeping (f : SourceFile) (s : SyntaxFindings) (kind : QuestionKind) (g : SourceFile) : Prop where
  path : g.path = f.path
  released : g.released = f.released
  shows : g.ShowsOnly s
  kept_iff : ∀ other, g.Kept other ↔ f.Kept other ∨ kind = other

/-- What comes of a question of a kind, where `answer` is the answer in the findings. -/
inductive Outcome {α : Type} (f : SourceFile) (s : SyntaxFindings) (kind : QuestionKind) (answer : α) :
    Except ProjectFault (α × SourceFile) → Prop where
  | refused (released : f.released = true) (new : ¬f.Kept kind) :
    Outcome f s kind answer (.error (.released f.path))
  | answered (able : f.released = true → f.Kept kind) {g : SourceFile} (keeping : f.Keeping s kind g) :
    Outcome f s kind answer (.ok (answer, g))

/-- A file that has kept a kind of answers stays as it is. -/
theorem ShowsOnly.keeping_self (h : f.ShowsOnly s) {kind : QuestionKind} (hkept : f.Kept kind) :
    f.Keeping s kind f where
  path := rfl
  released := rfl
  shows := h
  kept_iff other := by
    refine ⟨Or.inl, fun hother ↦ ?_⟩
    rcases hother with hother | rfl
    · exact hother
    · exact hkept

theorem shown_of_released (h : f.released = true) : f.shown = .error (.released f.path) := if_pos h

theorem ShowsOnly.shown_eq (h : f.ShowsOnly s) (hreleased : f.released = false) : f.shown = .ok s := by
  rw [shown, hreleased, h.findings hreleased]
  rfl

theorem askImports_outcome (h : f.ShowsOnly s) : f.Outcome s .imports s.imports f.askImports := by
  rw [askImports]
  cases hkept : f.imports? with
  | some imports =>
    obtain rfl : imports = s.imports := h.imports imports hkept
    have hknown : f.Kept .imports := by rw [Kept, hkept]; rfl
    exact .answered (fun _ ↦ hknown) (h.keeping_self hknown)
  | none =>
    have hnew : ¬f.Kept .imports := by simp [Kept, hkept]
    by_cases hreleased : f.released = true
    · rw [shown_of_released hreleased]
      exact .refused hreleased hnew
    · rw [h.shown_eq (by simpa using hreleased)]
      refine .answered (fun h ↦ absurd h hreleased) ⟨rfl, rfl, ?_, fun other ↦ ?_⟩
      · exact ⟨h.findings, by simp, h.tags, h.callees⟩
      · cases other <;> simp [Kept]

theorem usageIndex_outcome (h : f.ShowsOnly s) :
    f.Outcome s .uses (s.tags, s.callees) f.usageIndex := by
  rw [usageIndex]
  split
  · next tags callees htags hcallees =>
    obtain rfl : tags = s.tags := h.tags tags htags
    obtain rfl : callees = s.callees := h.callees callees hcallees
    have hknown : f.Kept .uses := by rw [Kept, htags, hcallees]; exact ⟨rfl, rfl⟩
    exact .answered (fun _ ↦ hknown) (h.keeping_self hknown)
  · next hmissing =>
    -- the tags or the callees alone are found again
    have hnew : ¬f.Kept .uses := by
      rintro ⟨htags, hcallees⟩
      obtain ⟨tags, htags⟩ := Option.isSome_iff_exists.mp htags
      obtain ⟨callees, hcallees⟩ := Option.isSome_iff_exists.mp hcallees
      exact hmissing tags callees htags hcallees
    by_cases hreleased : f.released = true
    · rw [shown_of_released hreleased]
      exact .refused hreleased hnew
    · rw [h.shown_eq (by simpa using hreleased)]
      refine .answered (fun h ↦ absurd h hreleased) ⟨rfl, rfl, ?_, fun other ↦ ?_⟩
      · exact ⟨h.findings, h.imports, by simp, by simp⟩
      · cases other <;> simp [Kept]

/-- Answers that depend on what was found only have the same outcome. -/
theorem Outcome.map {α β : Type} {kind : QuestionKind} {a : α}
    {r : Except ProjectFault (α × SourceFile)} (h : f.Outcome s kind a r) (g : α → β) :
    f.Outcome s kind (g a) (do let (a, f) ← r; return (g a, f)) := by
  cases h with
  | refused released new => exact .refused released new
  | answered able keeping => exact .answered able keeping

/-- **A question is answered from the findings a file was read with, or refused.** It is refused exactly if
the file is released and has not kept this kind of answers. -/
theorem ask_outcome (h : f.ShowsOnly s) (q : SourceQuestion) :
    f.Outcome s q.kind (q.answer s) (f.ask q) := by
  cases q with
  | imports => exact (askImports_outcome h).map SourceAnswer.imports
  -- the index has no imports, which neither of these questions looks at
  | rendered name =>
    exact ((usageIndex_outcome h).map fun r ↦ SyntaxFindings.isRendered { tags := r.1, callees := r.2 } name).map
      SourceAnswer.holds
  | called name =>
    exact ((usageIndex_outcome h).map fun r ↦ SyntaxFindings.isCalled { tags := r.1, callees := r.2 } name).map
      SourceAnswer.holds

theorem ShowsOnly.release (h : f.ShowsOnly s) : f.release.ShowsOnly s where
  findings := by simp [SourceFile.release]
  imports := h.imports
  tags := h.tags
  callees := h.callees

theorem kept_release {kind : QuestionKind} : f.release.Kept kind ↔ f.Kept kind := by
  cases kind <;> exact Iff.rfl

/-- A file that was neither asked nor released. -/
def Fresh (f : SourceFile) : Prop := f = { path := f.path, findings := f.findings }

theorem Fresh.not_released (h : f.Fresh) : f.released = false := by rw [h]

theorem Fresh.not_kept (h : f.Fresh) (kind : QuestionKind) : ¬f.Kept kind := by
  rw [h]
  cases kind <;> simp [Kept]

theorem Fresh.showsOnly (h : f.Fresh) : f.ShowsOnly f.findings where
  findings _ := rfl
  imports := by rw [h]; simp
  tags := by rw [h]; simp
  callees := by rw [h]; simp

end SourceFile

namespace SourceProject

/-- Asks a known file a question. -/
def ask (p : SourceProject) (path : String) :
    SourceQuestion → Except ProjectFault (Option SourceAnswer × SourceProject)
  | .imports => do
    let (declarations, p) ← p.askImports path
    return (declarations.map .imports, p)
  | .rendered name => do
    let (value, p) ← p.askUses path (·.isRendered name)
    return (value.map .holds, p)
  | .called name => do
    let (value, p) ← p.askUses path (·.isCalled name)
    return (value.map .holds, p)

variable {p : SourceProject} {path : String}

theorem ask_of_unknown (h : p.files.lookup path = none) (q : SourceQuestion) :
    p.ask path q = .ok (none, p) := by
  cases q <;> simp [ask, askImports, askUses, h, bind, Except.bind, pure, Except.pure]

/-- The project asks the file. -/
theorem ask_of_known {f : SourceFile} (h : p.files.lookup path = some f) (q : SourceQuestion) :
    p.ask path q = (do
      let (answer, f) ← f.ask q
      return (some answer, { p with files := p.files.set path f })) := by
  cases q with
  | imports =>
    simp only [ask, askImports, h, SourceFile.ask]
    cases f.askImports <;> rfl
  | rendered name =>
    simp only [ask, askUses, h, SourceFile.ask]
    cases f.askUses (·.isRendered name) <;> rfl
  | called name =>
    simp only [ask, askUses, h, SourceFile.ask]
    cases f.askUses (·.isCalled name) <;> rfl

/-- A file is fresh when it was read. -/
theorem fresh_of_readFile {t : FileNode} {path : Path} {f : SourceFile} (h : p.readFile t path = .ok f) :
    f.Fresh := by
  cases hsource : t.readRawText p.root (p.absolutePath path) with
  | error e =>
    rw [readFile, hsource] at h
    cases h
  | ok source =>
    rw [readFile_of_text hsource] at h
    cases h
    rfl

end SourceProject

end FeatureAtlas
