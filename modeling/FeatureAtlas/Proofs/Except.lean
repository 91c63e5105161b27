/-!
# Computations that end well

A sequence of computations ends well exactly if each of them does, so what is known about the end is taken
apart step by step.
-/

namespace FeatureAtlas

theorem bind_eq_ok {ε α β : Type} {m : Except ε α} {f : α → Except ε β} {y : β} :
    (m >>= f) = .ok y ↔ ∃ x, m = .ok x ∧ f x = .ok y := by
  cases m with
  | error e => exact iff_of_false nofun nofun
  | ok x =>
    constructor
    · exact fun h ↦ ⟨x, rfl, h⟩
    · rintro ⟨x', hx, h⟩
      rwa [Except.ok.inj hx]

theorem mapError_eq_ok {ε ε' α : Type} {f : ε → ε'} {m : Except ε α} {x : α} :
    m.mapError f = .ok x ↔ m = .ok x := by
  cases m with
  | error e => exact iff_of_false nofun nofun
  | ok y =>
    constructor
    · exact fun h ↦ congrArg Except.ok (Except.ok.inj h)
    · exact fun h ↦ congrArg Except.ok (Except.ok.inj h)

theorem map_eq_ok {ε α β : Type} {f : α → β} {m : Except ε α} {y : β} :
    m.map f = .ok y ↔ ∃ x, m = .ok x ∧ f x = y := by
  cases m with
  | error e => exact iff_of_false nofun nofun
  | ok x =>
    constructor
    · exact fun h ↦ ⟨x, rfl, Except.ok.inj h⟩
    · rintro ⟨x', hx, h⟩
      rw [Except.ok.inj hx, ← h]
      rfl

theorem map_eq_error {ε α β : Type} {f : α → β} {m : Except ε α} {e : ε} :
    m.map f = .error e ↔ m = .error e := by
  cases m with
  | ok x => exact iff_of_false nofun nofun
  | error e' =>
    constructor
    · exact fun h ↦ congrArg Except.error (Except.error.inj h)
    · exact fun h ↦ congrArg Except.error (Except.error.inj h)

theorem toOption_eq_of_ok_iff {ε α : Type} {m m' : Except ε α}
    (h : ∀ x, m' = .ok x ↔ m = .ok x) : m'.toOption = m.toOption := by
  cases m with
  | ok x => rw [(h x).mpr rfl]
  | error e =>
    cases m' with
    | ok x => cases (h x).mp rfl
    | error e' => rfl

end FeatureAtlas
