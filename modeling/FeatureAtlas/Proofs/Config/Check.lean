import FeatureAtlas.Config.Schema

/-!
# Checks without issues

A check collects issues and goes on, so its value means something only if no issue was recorded. Two
notions carry every argument about validation. A check *grows*: it never withdraws an issue, so a run that
ends without issues had none at any point. And a check is *clean* with a value if it ends without issues
and gives that value; being clean passes through a sequence of checks step by step. A check of a value is
then described by a *reading*, a function that gives the accepted form of a value and nothing for what is
refused.

Growth is a class, so that for a sequence of checks it is found from its steps.
-/

namespace FeatureAtlas.Check

variable {α β : Type}

/-- The check never withdraws an issue. -/
class Grows (m : Check α) : Prop where
  growth : ∀ issues x issues', m.run issues = .ok (x, issues') → issues <+: issues'

/-- Started without issues, the check ends without issues and gives the value. -/
def Clean (m : Check α) (x : α) : Prop := m.run [] = .ok (x, [])

/-! ## Steps -/

private theorem run_bind_eq_ok {m : Check α} {f : α → Check β} {issues issues' : List ConfigIssue}
    {y : β} :
    (m >>= f).run issues = .ok (y, issues') ↔
      ∃ x between, m.run issues = .ok (x, between) ∧ (f x).run between = .ok (y, issues') := by
  rw [StateT.run_bind]
  cases m.run issues with
  | error e => simp [bind, Except.bind]
  | ok p =>
    obtain ⟨x, between⟩ := p
    constructor
    · intro h
      exact ⟨x, between, rfl, h⟩
    · rintro ⟨x', between', hm, hf⟩
      obtain ⟨rfl, rfl⟩ := Prod.mk.inj (Except.ok.inj hm)
      exact hf

instance grows_pure (x : α) : Grows (pure x : Check α) where
  growth := by
    intro issues y issues' h
    obtain ⟨rfl, rfl⟩ := Prod.mk.inj (Except.ok.inj h)
    exact List.prefix_refl issues

instance grows_bind (m : Check α) (f : α → Check β) [hm : Grows m] [hf : ∀ x, Grows (f x)] :
    Grows (m >>= f) where
  growth := by
    intro issues y issues' h
    obtain ⟨x, between, hx, hy⟩ := run_bind_eq_ok.mp h
    exact (hm.growth issues x between hx).trans ((hf x).growth between y issues' hy)

instance grows_ite (p : Prop) [Decidable p] (m n : Check α) [hm : Grows m] [hn : Grows n] :
    Grows (if p then m else n) := by
  split
  · exact hm
  · exact hn

instance grows_issue (path message : String) : Grows (issue path message) where
  growth := by
    intro issues x issues' h
    obtain ⟨-, rfl⟩ := Prod.mk.inj (Except.ok.inj h)
    exact List.prefix_append issues _

instance grows_throw (e : PatternFailure) : Grows (throw e : Check α) where
  growth := by
    intro issues x issues' h
    cases h

instance grows_refuse (path message : String) : Grows (refuse path message : Check (Option α)) :=
  inferInstanceAs (Grows (issue path message >>= fun _ ↦ pure none))

theorem clean_pure {x y : α} : Clean (pure x) y ↔ y = x := by
  constructor
  · intro h
    exact (Prod.mk.inj (Except.ok.inj h)).1.symm
  · rintro rfl
    rfl

/-- A sequence is clean if each step is: the second one cannot hide an issue of the first. -/
theorem clean_bind {m : Check α} {f : α → Check β} [hf : ∀ x, Grows (f x)] {y : β} :
    Clean (m >>= f) y ↔ ∃ x, Clean m x ∧ Clean (f x) y := by
  constructor
  · intro h
    obtain ⟨x, between, hx, hy⟩ := run_bind_eq_ok.mp h
    obtain rfl := List.prefix_nil.mp ((hf x).growth between y [] hy)
    exact ⟨x, hx, hy⟩
  · rintro ⟨x, hx, hy⟩
    exact run_bind_eq_ok.mpr ⟨x, [], hx, hy⟩

theorem not_clean_issue (path message : String) (u : Unit) : ¬Clean (issue path message) u := by
  intro h
  have h' := (Prod.mk.inj (Except.ok.inj h)).2
  simp at h'

theorem not_clean_throw (e : PatternFailure) (x : α) : ¬Clean (throw e) x := by
  intro h
  cases h

theorem not_clean_refuse (path message : String) (r : Option α) :
    ¬Clean (refuse path message) r := by
  rw [refuse, clean_bind]
  rintro ⟨u, hu, -⟩
  exact not_clean_issue path message u hu

/-! ## Readings -/

/-- The check is clean exactly with the given value, if there is one. -/
structure Gives (m : Check α) (given : Option α) : Prop where
  grows : Grows m
  clean : ∀ x, Clean m x ↔ given = some x

theorem gives_pure (x : α) : Gives (pure x) (some x) := by
  refine ⟨inferInstance, fun y ↦ ?_⟩
  rw [clean_pure, Option.some.injEq, eq_comm]

theorem Gives.bind {m : Check α} {given : Option α} (h : Gives m given) {f : α → Check β}
    {next : α → Option β} (hf : ∀ x, Gives (f x) (next x)) : Gives (m >>= f) (given >>= next) := by
  have hm : Grows m := h.grows
  have hgrows : ∀ x, Grows (f x) := fun x ↦ (hf x).grows
  refine ⟨inferInstance, fun y ↦ ?_⟩
  rw [clean_bind, Option.bind_eq_bind, Option.bind_eq_some_iff]
  simp only [h.clean, (hf _).clean]

/-- The check accepts a value as what was read of it, and refuses it if nothing was read. -/
def Reads (m : Check (Option α)) (read : Option α) : Prop := Gives m (read.map some)

theorem reads_pure (x : α) : Reads (pure (some x)) (some x) := gives_pure (some x)

theorem reads_refuse (path message : String) : Reads (refuse path message : Check (Option α)) none := by
  refine ⟨inferInstance, fun r ↦ ?_⟩
  simp [not_clean_refuse]

/-- Going on with what a check accepted goes on with what was read. What the next step does without a
value is irrelevant: there was an issue. -/
theorem Reads.gives_bind {m : Check (Option α)} {read : Option α} (h : Reads m read)
    {f : Option α → Check β} {next : α → Option β} (hnone : Grows (f none))
    (hf : ∀ x, Gives (f (some x)) (next x)) : Gives (m >>= f) (read >>= next) := by
  have hm : Grows m := h.grows
  have hgrows : ∀ r, Grows (f r)
    | none => hnone
    | some x => (hf x).grows
  refine ⟨inferInstance, fun y ↦ ?_⟩
  rw [clean_bind]
  simp only [h.clean]
  cases read with
  | none => simp
  | some x =>
    simp only [Option.map_some, Option.some.injEq, exists_eq_left']
    exact (hf x).clean y

theorem Reads.bind {m : Check (Option α)} {read : Option α} (h : Reads m read)
    {f : Option α → Check (Option β)} {further : α → Option β} (hnone : Grows (f none))
    (hf : ∀ x, Reads (f (some x)) (further x)) : Reads (m >>= f) (read >>= further) := by
  have hgives := h.gives_bind hnone hf
  rwa [Reads, Option.bind_eq_bind, Option.map_bind]

end FeatureAtlas.Check
