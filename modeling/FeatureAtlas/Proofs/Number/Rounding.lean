import FeatureAtlas.Number.Binary64
import Mathlib.Algebra.Order.Field.Power
import Mathlib.Algebra.Order.Field.Rat
import Mathlib.Tactic.NormNum
import Mathlib.Tactic.Positivity
import Mathlib.Tactic.Ring

/-!
# Rounding to doubles

The double nearest to a quotient is found in two steps: a power of two in whose units the quotient has at
most 53 bits, then the nearest whole number of these units. The power is guessed from the lengths of the two
numbers, but it is the only one that fits; so rounding depends on the quotient alone and not on the numbers
that write it, and a quotient that is a double is rounded to itself. Quotients are compared as rational
numbers, which no definition of the format needs.
-/

namespace FeatureAtlas.Binary64

/-- A finite double is in the form that the format holds: 53 bits, and all of them used unless the power of
two is the smallest. -/
def IsCanonical : Binary64 → Prop
  | finite _ m e => m < 2 ^ 53 ∧ -1074 ≤ e ∧ e ≤ 971 ∧ (2 ^ 52 ≤ m ∨ e = -1074)
  | _ => True

instance : (x : Binary64) → Decidable x.IsCanonical
  | finite .. => inferInstanceAs (Decidable (_ ∧ _ ∧ _ ∧ (_ ∨ _)))
  | infinite _ | notANumber => .isTrue trivial

theorem isCanonical_zero (negative : Bool) : (finite negative 0 (-1074)).IsCanonical :=
  ⟨by decide, by decide, by decide, Or.inr rfl⟩

/-! ## Rounding to whole numbers -/

section

variable {num den num' den' m k : Nat}

theorem roundDiv_mul_right (hk : 0 < k) : roundDiv (num * k) (den * k) = roundDiv num den := by
  have hmod : ∀ r, (2 * (r * k) > den * k) = (2 * r > den) := fun r ↦ by
    rw [← Nat.mul_assoc, gt_iff_lt, Nat.mul_lt_mul_right hk]
  have htie : ∀ r, (2 * (r * k) == den * k) = (2 * r == den) := fun r ↦ by
    rw [← Nat.mul_assoc, Bool.eq_iff_iff, beq_iff_eq, beq_iff_eq,
      Nat.mul_left_inj (Nat.ne_of_gt hk)]
  simp only [roundDiv, Nat.mul_div_mul_right _ _ hk, Nat.mul_mod_mul_right, hmod, htie]

theorem roundDiv_congr (hden : 0 < den) (hden' : 0 < den') (h : num * den' = num' * den) :
    roundDiv num den = roundDiv num' den' :=
  calc roundDiv num den = roundDiv (num * den') (den * den') := (roundDiv_mul_right hden').symm
    _ = roundDiv (num' * den) (den' * den) := by rw [h, Nat.mul_comm den den']
    _ = roundDiv num' den' := roundDiv_mul_right hden

theorem roundDiv_mul_self (hden : 0 < den) : roundDiv (m * den) den = m := by
  have hfloor : m * den / den = m := Nat.mul_div_cancel m hden
  have hrest : m * den % den = 0 := Nat.mul_mod_left m den
  rw [roundDiv, hfloor, hrest, if_neg]
  simp only [Nat.mul_zero, Bool.or_eq_true, decide_eq_true_eq, Bool.and_eq_true, beq_iff_eq]
  omega

theorem le_roundDiv (hden : 0 < den) (h : m * den ≤ num) : m ≤ roundDiv num den := by
  have hfloor : m ≤ num / den := (Nat.le_div_iff_mul_le hden).mpr h
  rw [roundDiv]
  split <;> omega

theorem roundDiv_le (hden : 0 < den) (h : num < m * den) : roundDiv num den ≤ m := by
  have hfloor : num / den < m := (Nat.div_lt_iff_lt_mul hden).mpr h
  rw [roundDiv]
  split <;> omega

end

/-! ## Units -/

section

variable {num den : Nat} {x : ℚ} {e e' : ℤ}

theorem scaled_pos (num : Nat) (hden : 0 < den) (e : ℤ) : 0 < (scaled num den e).2 := by
  rw [scaled]
  split
  · exact hden
  · exact Nat.mul_pos hden (Nat.two_pow_pos _)

theorem scaled_div (num den : Nat) (e : ℤ) :
    ((scaled num den e).1 : ℚ) / (scaled num den e).2 = num / den / 2 ^ e := by
  rw [scaled]
  split
  · next he =>
    obtain ⟨k, rfl⟩ : ∃ k : ℕ, e = -k := ⟨(-e).toNat, by omega⟩
    simp only [neg_neg, Int.toNat_natCast, Nat.pow_eq, Nat.cast_mul, Nat.cast_pow, Nat.cast_ofNat,
      zpow_neg, zpow_natCast, div_inv_eq_mul]
    ring
  · next he =>
    obtain ⟨k, rfl⟩ : ∃ k : ℕ, e = k := ⟨e.toNat, by omega⟩
    simp only [Int.toNat_natCast, Nat.pow_eq, Nat.cast_mul, Nat.cast_pow, Nat.cast_ofNat, zpow_natCast,
      div_div]

theorem mul_le_scaled_iff (hden : 0 < den) (m : Nat) (e : ℤ) :
    m * (scaled num den e).2 ≤ (scaled num den e).1 ↔ m * 2 ^ e ≤ (num / den : ℚ) := by
  have hpos : (0 : ℚ) < (scaled num den e).2 := Nat.cast_pos.mpr (scaled_pos num hden e)
  have hunit : (0 : ℚ) < 2 ^ e := by positivity
  rw [← le_div_iff₀ hunit, ← scaled_div, le_div_iff₀ hpos]
  exact_mod_cast Iff.rfl

/-- In units of this power of two a number has at most 53 bits, and all of them are used unless the power is
the smallest. -/
structure Fits (x : ℚ) (e : ℤ) : Prop where
  low_le : -1074 ≤ e
  lt : x < 2 ^ (e + 53)
  le : e = -1074 ∨ 2 ^ (e + 52) ≤ x

theorem Fits.le_of (h : Fits x e) (h' : Fits x e') : e ≤ e' := by
  by_contra hlt
  have hlow := h'.low_le
  have hle : (2 : ℚ) ^ (e + 52) ≤ x := h.le.resolve_left (by omega)
  have hpow : (2 : ℚ) ^ (e' + 53) ≤ 2 ^ (e + 52) := zpow_le_zpow_right₀ one_le_two (by omega)
  exact absurd h'.lt (not_lt.mpr (hpow.trans hle))

theorem Fits.unique (h : Fits x e) (h' : Fits x e') : e = e' := le_antisymm (h.le_of h') (h'.le_of h)

/-- The unit that the quotient of two numbers is rounded in. -/
def unitOf (num den : Nat) : ℤ :=
  let low : ℤ := max (-1074) (Int.ofNat num.log2 - Int.ofNat den.log2 - 53)
  if (scaled num den low).1 / (scaled num den low).2 ≥ Nat.pow 2 53 then low + 1 else low

theorem pow_lt_quotient (hnum : 0 < num) (hden : 0 < den) :
    (2 : ℚ) ^ ((num.log2 : ℤ) - den.log2 - 1) < num / den := by
  have hlow : ((2 ^ num.log2 : ℕ) : ℚ) ≤ num := Nat.cast_le.mpr (Nat.log2_self_le hnum.ne')
  have hhigh : (den : ℚ) < (2 ^ (den.log2 + 1) : ℕ) := Nat.cast_lt.mpr Nat.lt_log2_self
  have hpos : (0 : ℚ) < den := Nat.cast_pos.mpr hden
  rw [lt_div_iff₀ hpos]
  push_cast at hlow hhigh
  calc (2 : ℚ) ^ ((num.log2 : ℤ) - den.log2 - 1) * den
      < 2 ^ ((num.log2 : ℤ) - den.log2 - 1) * 2 ^ (den.log2 + 1) := by gcongr
    _ = 2 ^ num.log2 := by
      rw [← zpow_natCast, ← zpow_natCast, ← zpow_add₀ two_ne_zero]
      congr 1
      push_cast
      ring
    _ ≤ num := hlow

theorem quotient_lt_pow (num : Nat) (hden : 0 < den) :
    (num / den : ℚ) < 2 ^ ((num.log2 : ℤ) - den.log2 + 1) := by
  have hlow : ((2 ^ den.log2 : ℕ) : ℚ) ≤ den := Nat.cast_le.mpr (Nat.log2_self_le hden.ne')
  have hhigh : (num : ℚ) < (2 ^ (num.log2 + 1) : ℕ) := Nat.cast_lt.mpr Nat.lt_log2_self
  have hpos : (0 : ℚ) < den := Nat.cast_pos.mpr hden
  rw [div_lt_iff₀ hpos]
  push_cast at hlow hhigh
  calc (num : ℚ) < 2 ^ (num.log2 + 1) := hhigh
    _ = 2 ^ ((num.log2 : ℤ) - den.log2 + 1) * 2 ^ den.log2 := by
      rw [← zpow_natCast, ← zpow_natCast, ← zpow_add₀ two_ne_zero]
      congr 1
      push_cast
      ring
    _ ≤ 2 ^ ((num.log2 : ℤ) - den.log2 + 1) * den := by gcongr

/-- The unit that the lengths of the two numbers lead to fits their quotient. -/
theorem fits_unitOf (hnum : 0 < num) (hden : 0 < den) : Fits (num / den) (unitOf num den) := by
  have hlow := pow_lt_quotient hnum hden
  have hhigh := quotient_lt_pow num hden
  have hwide : ∀ e : ℤ, Nat.pow 2 53 ≤ (scaled num den e).1 / (scaled num den e).2 ↔
      (2 : ℚ) ^ (e + 53) ≤ num / den := by
    intro e
    rw [Nat.le_div_iff_mul_le (scaled_pos num hden e), mul_le_scaled_iff hden, add_comm,
      zpow_add₀ two_ne_zero]
    norm_num
  rw [unitOf]
  simp only [ge_iff_le, hwide, Int.ofNat_eq_natCast]
  -- the guess leaves 53 or 54 bits; a step up is taken for the latter
  generalize hguess : ((num.log2 : ℤ) - den.log2 - 53) = guess
  rw [show (num.log2 : ℤ) - den.log2 - 1 = guess + 52 by omega] at hlow
  rw [show (num.log2 : ℤ) - den.log2 + 1 = guess + 54 by omega] at hhigh
  split
  · next hge =>
    refine ⟨by omega, hhigh.trans_le (zpow_le_zpow_right₀ one_le_two (by omega)), Or.inr ?_⟩
    rwa [add_assoc]
  · next hlt =>
    refine ⟨by omega, not_le.mp hlt, ?_⟩
    rcases le_total guess (-1074) with hle | hle
    · exact Or.inl (max_eq_left hle)
    · rw [max_eq_right hle]
      exact Or.inr hlow.le

end

/-! ## Rounding to doubles -/

/-- The double of a number of units, where 54 bits are one unit too many. -/
def pack (negative : Bool) (m : Nat) (e : ℤ) : Binary64 :=
  let (m, e) := if m == Nat.pow 2 53 then (Nat.pow 2 52, e + 1) else (m, e)
  if e > 971 then infinite negative else finite negative m e

section

variable {negative : Bool} {num den num' den' m : Nat} {e : ℤ}

theorem ofRatio_eq_pack (hnum : 0 < num) (hden : 0 < den) :
    ofRatio negative num den = pack negative
      (roundDiv (scaled num den (unitOf num den)).1 (scaled num den (unitOf num den)).2)
      (unitOf num den) := by
  rw [ofRatio, if_neg (by simp [hnum.ne', hden.ne'])]
  rfl

theorem ofRatio_zero : ofRatio negative 0 den = finite negative 0 (-1074) := rfl

/-- The double nearest to a quotient depends on the quotient alone. -/
theorem ofRatio_congr (hden : 0 < den) (hden' : 0 < den') (h : num * den' = num' * den) :
    ofRatio negative num den = ofRatio negative num' den' := by
  rcases Nat.eq_zero_or_pos num with rfl | hnum
  · obtain rfl : num' = 0 := by
      rw [Nat.zero_mul] at h
      exact (Nat.mul_eq_zero.mp h.symm).resolve_right hden.ne'
    rw [ofRatio_zero, ofRatio_zero]
  · have hnum' : 0 < num' := Nat.pos_of_mul_pos_right (h ▸ Nat.mul_pos hnum hden')
    have hquotient : (num / den : ℚ) = num' / den' := by
      rw [div_eq_div_iff (by positivity) (by positivity)]
      exact_mod_cast h
    -- the guesses may differ, the units that they lead to do not
    have hunit : unitOf num den = unitOf num' den' :=
      (fits_unitOf hnum hden).unique (hquotient ▸ fits_unitOf hnum' hden')
    rw [ofRatio_eq_pack hnum hden, ofRatio_eq_pack hnum' hden', hunit]
    congr 1
    have hpos := scaled_pos num hden (unitOf num' den')
    have hpos' := scaled_pos num' hden' (unitOf num' den')
    refine roundDiv_congr hpos hpos' ?_
    have hscaled := (scaled_div num den (unitOf num' den')).trans
      (hquotient ▸ (scaled_div num' den' (unitOf num' den')).symm)
    rw [div_eq_div_iff (by positivity) (by positivity)] at hscaled
    exact_mod_cast hscaled

/-- A quotient that is a double is rounded to it. -/
theorem ofRatio_exact (hcanonical : (finite negative m e).IsCanonical) (hm : 0 < m) (hden : 0 < den)
    (h : (num / den : ℚ) = m * 2 ^ e) : ofRatio negative num den = finite negative m e := by
  obtain ⟨hlt, hlow, hhigh, hfull⟩ := hcanonical
  have hnum : 0 < num := by
    rcases Nat.eq_zero_or_pos num with rfl | hnum
    · have hpos : (0 : ℚ) < m * 2 ^ e := by positivity
      simp [← h] at hpos
    · exact hnum
  have hfits : Fits (num / den) e := by
    refine ⟨hlow, ?_, hfull.symm.imp_right fun hfull ↦ ?_⟩
    · rw [h, add_comm, zpow_add₀ two_ne_zero]
      gcongr
      exact_mod_cast hlt
    · rw [h, add_comm, zpow_add₀ two_ne_zero]
      gcongr
      exact_mod_cast hfull
  have hround : roundDiv (scaled num den e).1 (scaled num den e).2 = m := by
    have hpos := scaled_pos num hden e
    have hscaled := scaled_div num den e
    rw [h, mul_div_cancel_right₀ _ (by positivity), div_eq_iff (by positivity)] at hscaled
    have hnat : (scaled num den e).1 = m * (scaled num den e).2 := by exact_mod_cast hscaled
    rw [hnat, roundDiv_mul_self hpos]
  have hbits : ¬ (m == Nat.pow 2 53) = true := by
    rw [beq_iff_eq]
    exact hlt.ne
  rw [ofRatio_eq_pack hnum hden, (fits_unitOf hnum hden).unique hfits, hround, pack, if_neg hbits]
  exact if_neg (not_lt.mpr hhigh)

theorem isCanonical_pack (hlow : -1074 ≤ e) (hle : m ≤ 2 ^ 53) (hfull : 2 ^ 52 ≤ m ∨ e = -1074) :
    (pack negative m e).IsCanonical := by
  rw [pack]
  split
  · next heq =>
    split at heq
    · cases heq
      split
      · trivial
      · exact ⟨by decide, by omega, by omega, Or.inl (le_refl _)⟩
    · next hbits =>
      cases heq
      have hne : m ≠ 2 ^ 53 := fun h ↦ hbits (beq_iff_eq.mpr h)
      split
      · trivial
      · exact ⟨by omega, hlow, by omega, hfull⟩

/-- What a quotient is rounded to is in the form of the format. -/
theorem isCanonical_ofRatio (hden : 0 < den) : (ofRatio negative num den).IsCanonical := by
  rcases Nat.eq_zero_or_pos num with rfl | hnum
  · rw [ofRatio_zero]
    exact isCanonical_zero negative
  · have hfits := fits_unitOf hnum hden
    have hpos := scaled_pos num hden (unitOf num den)
    rw [ofRatio_eq_pack hnum hden]
    refine isCanonical_pack hfits.low_le (roundDiv_le hpos ?_) (hfits.le.symm.imp_left fun hle ↦ ?_)
    · rw [← not_le, mul_le_scaled_iff hden, not_le, Nat.cast_pow, Nat.cast_ofNat, ← zpow_natCast,
        ← zpow_add₀ two_ne_zero, add_comm]
      exact hfits.lt
    · refine le_roundDiv hpos ((mul_le_scaled_iff hden _ _).mpr ?_)
      rwa [Nat.cast_pow, Nat.cast_ofNat, ← zpow_natCast, ← zpow_add₀ two_ne_zero, add_comm]

end

/-! ## Signs -/

/-- The double with another sign. -/
def withSign (negative : Bool) : Binary64 → Binary64
  | finite _ m e => finite negative m e
  | infinite _ => infinite negative
  | notANumber => notANumber

theorem pack_withSign (negative : Bool) (m : Nat) (e : ℤ) :
    pack negative m e = (pack false m e).withSign negative := by
  simp only [pack]
  split <;> split <;> rfl

/-- The magnitude is rounded without regard to the sign. -/
theorem ofRatio_withSign (negative : Bool) (num den : Nat) :
    ofRatio negative num den = (ofRatio false num den).withSign negative := by
  rcases Nat.eq_zero_or_pos num with rfl | hnum
  · rfl
  · rcases Nat.eq_zero_or_pos den with rfl | hden
    · rw [ofRatio, if_pos (by simp), ofRatio, if_pos (by simp)]
      rfl
    · rw [ofRatio_eq_pack hnum hden, ofRatio_eq_pack hnum hden, pack_withSign]

end FeatureAtlas.Binary64
