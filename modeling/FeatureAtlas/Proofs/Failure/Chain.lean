import FeatureAtlas.Console.Exit
import Mathlib.Data.List.Chain
import Mathlib.Data.List.Perm.Subperm
import Mathlib.Logic.Relation

/-!
# Chains of failures

Behind a failure stands the one that caused it, or else the one it arose in. A failure has at most one such
other, so what stands behind a failure at any distance is a path, which ends or runs into itself. The chain is
this path up to the first place that it comes to again: what it says about each listed failure and about the
known places is kept by every round, and from the first round on it is a fact about all failures behind the
given one.
-/

namespace FeatureAtlas

theorem FailureKind.isConfiguration_iff (k : FailureKind) :
    k.isConfiguration = true ↔
      k ∈ [configLoad, configInvalid, projectLoad, notFound, notDirectory, notPermitted] := by
  cases k <;> simp [isConfiguration]

namespace FailureGraph

/-- The failure at the second place is the cause of the one at the first, or, if that has no cause, its context,
which is not hidden. -/
inductive Behind (g : FailureGraph) : Nat → Nat → Prop
  | cause {p q : Nat} {f : FailureNode} (hf : g[p]? = some f) (hcause : f.cause = some q)
    (hq : q < g.length) : Behind g p q
  | context {p q : Nat} {f : FailureNode} (hf : g[p]? = some f) (hcause : f.cause = none)
    (hshown : f.suppressed = false) (hcontext : f.context = some q) (hq : q < g.length) : Behind g p q

variable {g : FailureGraph} {known : List Nat} {current : Option Nat} {p q : Nat}

theorem behind_iff : g.Behind p q ↔ g.next? p = some q ∧ q < g.length := by
  constructor
  · rintro (⟨hf, hcause, hq⟩ | ⟨hf, hcause, hshown, hcontext, hq⟩)
    · exact ⟨by simp [next?, hf, hcause], hq⟩
    · exact ⟨by simp [next?, hf, hcause, hshown, hcontext], hq⟩
  · rintro ⟨hnext, hq⟩
    rw [next?] at hnext
    split at hnext
    · cases hnext
    · next f hf =>
      cases hcause : f.cause with
      | some r =>
        rw [hcause] at hnext
        exact .cause hf (hcause.trans hnext) hq
      | none =>
        rw [hcause, Option.orElse_eq_orElse, Option.orElse_none] at hnext
        split at hnext
        · cases hnext
        · next hshown => exact .context hf hcause (Bool.eq_false_iff.mpr hshown) hnext hq

/-! ## One round -/

theorem placesFrom_new (hnew : p ∉ known) (hp : p < g.length) :
    g.placesFrom known (some p) = p :: g.placesFrom (p :: known) (g.next? p) := by
  rw [placesFrom, if_neg (not_or.mpr ⟨hnew, Nat.not_le.mpr hp⟩)]

theorem head?_placesFrom (h : q ∈ (g.placesFrom known current).head?) : current = some q ∧ q < g.length := by
  rw [placesFrom.eq_def] at h
  split at h
  · cases h
  · split at h
    · cases h
    · next hp =>
      cases h
      exact ⟨rfl, Nat.not_le.mp (not_or.mp hp).2⟩

/-! ## All rounds -/

theorem mem_placesFrom (h : q ∈ g.placesFrom known current) : q ∉ known ∧ q < g.length := by
  fun_induction placesFrom g known current with
  | case1 known | case2 known p hp => cases h
  | case3 known p hp ih =>
    obtain ⟨hnew, hlt⟩ := not_or.mp hp
    rcases List.mem_cons.mp h with rfl | hrest
    · exact ⟨hnew, Nat.not_le.mp hlt⟩
    · obtain ⟨hother, hq⟩ := ih hrest
      exact ⟨fun hknown ↦ hother (List.mem_cons_of_mem p hknown), hq⟩

/-- No place is listed twice, as each is known from its round on. -/
theorem nodup_placesFrom : (g.placesFrom known current).Nodup := by
  fun_induction placesFrom g known current with
  | case1 known | case2 known p hp => exact List.nodup_nil
  | case3 known p hp ih =>
    exact List.nodup_cons.mpr ⟨fun hmem ↦ (mem_placesFrom hmem).1 List.mem_cons_self, ih⟩

theorem isChain_placesFrom : (g.placesFrom known current).IsChain g.Behind := by
  fun_induction placesFrom g known current with
  | case1 known | case2 known p hp => exact List.isChain_nil
  | case3 known p hp ih =>
    exact List.isChain_cons.mpr ⟨fun q hq ↦ behind_iff.mpr (head?_placesFrom hq), ih⟩

/-- What stands behind a listed place was known, or it is listed. -/
theorem mem_placesFrom_of_behind (h : p ∈ g.placesFrom known current) (hpq : g.Behind p q) :
    q ∈ known ∨ q ∈ g.placesFrom known current := by
  fun_induction placesFrom g known current with
  | case1 known | case2 known place hp => cases h
  | case3 known place hplace ih =>
    have hrest : q ∈ place :: known ∨ q ∈ g.placesFrom (place :: known) (g.next? place) := by
      rcases List.mem_cons.mp h with rfl | hmem
      · obtain ⟨hnext, hq⟩ := behind_iff.mp hpq
        -- the next round lists it, if it is not known by then
        by_cases hknown : q ∈ p :: known
        · exact Or.inl hknown
        · rw [hnext, placesFrom_new hknown hq]
          exact Or.inr List.mem_cons_self
      · exact ih hmem
    rw [List.mem_cons, or_assoc, or_left_comm] at hrest
    rwa [List.mem_cons]

/-! ## The chain of a failure -/

theorem head?_places {start : Nat} (h : start < g.length) : (g.places start).head? = some start := by
  rw [places, placesFrom_new List.not_mem_nil h]
  rfl

theorem length_places_le (start : Nat) : (g.places start).length ≤ g.length := by
  have hsubset : g.places start ⊆ List.range g.length := fun p hp ↦
    List.mem_range.mpr (mem_placesFrom hp).2
  have hnodup : (g.places start).Nodup := nodup_placesFrom
  simpa using (hnodup.subperm hsubset).length_le

theorem mem_places_of_behind {start : Nat} (h : p ∈ g.places start) (hpq : g.Behind p q) :
    q ∈ g.places start :=
  (mem_placesFrom_of_behind h hpq).resolve_left List.not_mem_nil

/-- The chain lists exactly what stands behind its start at any distance. -/
theorem mem_places_iff {start : Nat} (h : start < g.length) :
    p ∈ g.places start ↔ Relation.ReflTransGen g.Behind start p := by
  have hhead := head?_places h
  constructor
  · have hchain : (g.places start).IsChain g.Behind := isChain_placesFrom
    refine hchain.induction _ _ (fun x y hxy hx ↦ hx.tail hxy) (fun hne ↦ ?_) p
    rw [List.head?_eq_some_head hne, Option.some.injEq] at hhead
    rw [hhead]
  · intro hreach
    induction hreach with
    | refl => exact List.mem_of_mem_head? hhead
    | tail _ hstep ih => exact mem_places_of_behind ih hstep

theorem mem_chainOf {start : Nat} {f : FailureNode} :
    f ∈ g.chainOf start ↔ ∃ p ∈ g.places start, g[p]? = some f := List.mem_filterMap

theorem exitCodeOf_eq_configError_iff {start : Nat} :
    g.exitCodeOf start = .configError ↔ ∃ f ∈ g.chainOf start, f.kind.isConfiguration = true := by
  rw [exitCodeOf]
  split
  · next h => simpa using h
  · next h => simpa using h

/-- **The chain of a failure sees all there is behind it and ends**, whatever circles the failures make. It has
no more rounds than there are failures, lists none twice and starts with the given one. Each next one is the
cause of the one before it, or its context if there is no cause and the context is not hidden; and it stops
where there is no such next one or where that is listed already. So it lists exactly the failures behind the
given one at any distance, and the code says that there is a configuration error just if one of these is of a
kind that the user can mend. -/
theorem places_whole_chain (g : FailureGraph) (start : Fin g.length) :
    (g.places start).length ≤ g.length ∧ (g.places start).Nodup ∧
      (g.places start).head? = some start.val ∧ (g.places start).IsChain g.Behind ∧
      (∀ last ∈ (g.places start).getLast?, ∀ p, g.Behind last p → p ∈ g.places start) ∧
      (∀ p, p ∈ g.places start ↔ Relation.ReflTransGen g.Behind start p) ∧
      (g.exitCodeOf start = .configError ↔ ∃ p ∈ g.places start, ∃ f, g[p]? = some f ∧
        f.kind ∈ [.configLoad, .configInvalid, .projectLoad, .notFound, .notDirectory, .notPermitted]) ∧
      (g.exitCodeOf start = .configError ∨ g.exitCodeOf start = .internalError) := by
  have hcode : g.exitCodeOf start = .configError ↔ ∃ p ∈ g.places start, ∃ f, g[p]? = some f ∧
      f.kind ∈ [.configLoad, .configInvalid, .projectLoad, .notFound, .notDirectory, .notPermitted] := by
    simp only [exitCodeOf_eq_configError_iff, mem_chainOf, FailureKind.isConfiguration_iff]
    constructor
    · rintro ⟨f, ⟨p, hp, hf⟩, hkind⟩
      exact ⟨p, hp, f, hf, hkind⟩
    · rintro ⟨p, hp, f, hf, hkind⟩
      exact ⟨f, ⟨p, hp, hf⟩, hkind⟩
  refine ⟨length_places_le start, nodup_placesFrom, head?_places start.isLt, isChain_placesFrom, ?_,
    fun p ↦ mem_places_iff start.isLt, hcode, ?_⟩
  · exact fun last hlast p ↦ mem_places_of_behind (List.mem_of_mem_getLast? hlast)
  · rw [exitCodeOf]
    split
    · exact Or.inl rfl
    · exact Or.inr rfl

/-- A circle that is entered from outside is gone through once. -/
example : FailureGraph.places
    [{ kind := .other "RuntimeError", message := "", context := some 1 },
     { kind := .other "OSError", message := "", cause := some 2 },
     { kind := .notFound, message := "", context := some 1 }] 0 = [0, 1, 2] := by
  cbv

end FailureGraph

end FeatureAtlas
