import FeatureAtlas.Number.Shortest
import FeatureAtlas.Proofs.Number.Rounding

/-!
# Decimals of doubles

Reading a decimal rounds its value, so zeros that are moved between its digits and its exponent change
nothing. The shortest decimal of a double reads as that double: what the search finds was tried, and the
exact decimal that stands in for a search without result is rounded to itself.
-/

namespace FeatureAtlas.Binary64

/-! ## Digits and values -/

section

variable {n : Nat}

theorem length_toDigits_mul_ten (hn : 0 < n) :
    (Nat.toDigits 10 (n * 10)).length = (Nat.toDigits 10 n).length + 1 := by
  rw [Nat.toDigits_of_base_le (by decide) (by omega), Nat.mul_div_cancel n (by decide),
    List.length_append, List.length_singleton]

theorem lt_pow_length (n : Nat) : n < 10 ^ (Nat.toDigits 10 n).length :=
  (Nat.length_toDigits_le_iff (by decide) Nat.length_toDigits_pos).mp (Nat.le_refl _)

theorem pow_length_le (hn : 0 < n) : 10 ^ ((Nat.toDigits 10 n).length - 1) ≤ n := by
  by_contra hlt
  rcases Nat.eq_zero_or_pos ((Nat.toDigits 10 n).length - 1) with hzero | hpos
  · rw [hzero] at hlt
    omega
  · have hle := (Nat.length_toDigits_le_iff (by decide) hpos).mpr (not_le.mp hlt)
    omega

end

/-! ## Reading decimals -/

section

variable {negative : Bool} {n m : Nat} {k e : ℤ}

theorem ofDecimal_zero (k : ℤ) : ofDecimal negative 0 k = finite negative 0 (-1074) := rfl

theorem ofDecimal_small (h : ((Nat.toDigits 10 n).length : ℤ) + k < -400) :
    ofDecimal negative n k = finite negative 0 (-1074) := by
  rw [ofDecimal, if_pos]
  simpa using Or.inr h

theorem ofDecimal_large (hn : 0 < n) (h : 400 < ((Nat.toDigits 10 n).length : ℤ) + k) :
    ofDecimal negative n k = infinite negative := by
  have hsize : ¬ ((n == 0) || decide (Int.ofNat (Nat.toDigits 10 n).length + k < -400)) = true := by
    simp only [Int.ofNat_eq_natCast, Bool.or_eq_true, beq_iff_eq, decide_eq_true_eq]
    omega
  rw [ofDecimal, if_neg hsize]
  exact if_pos h

/-- Between the bounds the value of a decimal is rounded. -/
theorem exists_ofDecimal_eq (hn : 0 < n) (hlow : -400 ≤ ((Nat.toDigits 10 n).length : ℤ) + k)
    (hhigh : ((Nat.toDigits 10 n).length : ℤ) + k ≤ 400) :
    ∃ num den : Nat, 0 < den ∧ (num / den : ℚ) = n * 10 ^ k ∧
      ∀ negative, ofDecimal negative n k = ofRatio negative num den := by
  have hsize : ¬ ((n == 0) || decide (Int.ofNat (Nat.toDigits 10 n).length + k < -400)) = true := by
    simp only [Int.ofNat_eq_natCast, Bool.or_eq_true, beq_iff_eq, decide_eq_true_eq]
    omega
  have hbound : ¬ Int.ofNat (Nat.toDigits 10 n).length + k > 400 := not_lt.mpr hhigh
  simp only [ofDecimal, if_neg hsize, if_neg hbound]
  by_cases hk : k < 0
  · obtain ⟨j, rfl⟩ : ∃ j : ℕ, k = -j := ⟨(-k).toNat, by omega⟩
    refine ⟨n, 10 ^ j, by positivity, ?_, fun negative ↦ ?_⟩
    · rw [zpow_neg, zpow_natCast, Nat.cast_pow, Nat.cast_ofNat, div_eq_mul_inv]
    · rw [if_pos hk, neg_neg, Int.toNat_natCast]
      rfl
  · obtain ⟨j, rfl⟩ : ∃ j : ℕ, k = j := ⟨k.toNat, by omega⟩
    refine ⟨n * 10 ^ j, 1, Nat.one_pos, ?_, fun negative ↦ ?_⟩
    · rw [zpow_natCast, Nat.cast_mul, Nat.cast_pow, Nat.cast_ofNat, Nat.cast_one, div_one]
    · rw [if_neg hk, Int.toNat_natCast]
      rfl

/-- A zero at the end of the digits is one power of ten. -/
theorem ofDecimal_mul_ten (negative : Bool) (n : Nat) (k : ℤ) :
    ofDecimal negative (n * 10) k = ofDecimal negative n (k + 1) := by
  rcases Nat.eq_zero_or_pos n with rfl | hn
  · rfl
  · have hten : 0 < n * 10 := by omega
    have hlength : ((Nat.toDigits 10 (n * 10)).length : ℤ) + k
        = (Nat.toDigits 10 n).length + (k + 1) := by
      rw [length_toDigits_mul_ten hn]
      push_cast
      ring
    by_cases hlow : (Nat.toDigits 10 n).length + (k + 1) < -400
    · rw [ofDecimal_small hlow, ofDecimal_small (hlength ▸ hlow)]
    by_cases hhigh : 400 < (Nat.toDigits 10 n).length + (k + 1)
    · rw [ofDecimal_large hn hhigh, ofDecimal_large hten (hlength ▸ hhigh)]
    rw [not_lt] at hlow hhigh
    obtain ⟨num, den, hden, hvalue, heq⟩ := exists_ofDecimal_eq hn hlow hhigh
    obtain ⟨num', den', hden', hvalue', heq'⟩ :=
      exists_ofDecimal_eq hten (hlength ▸ hlow) (hlength ▸ hhigh)
    rw [heq, heq']
    refine ofRatio_congr hden' hden ?_
    have hquotient : (num' / den' : ℚ) = num / den := by
      rw [hvalue, hvalue', zpow_add_one₀ (by norm_num)]
      push_cast
      ring
    rw [div_eq_div_iff (by positivity) (by positivity)] at hquotient
    exact_mod_cast hquotient

theorem ofDecimal_mul_pow (negative : Bool) (n j : Nat) (k : ℤ) :
    ofDecimal negative (n * 10 ^ j) k = ofDecimal negative n (k + j) := by
  induction j generalizing k with
  | zero => simp
  | succ j ih =>
    rw [pow_succ, ← Nat.mul_assoc, ofDecimal_mul_ten, ih]
    congr 1
    push_cast
    ring

theorem two_zpow_le : (2 : ℚ) ^ (1200 : ℤ) ≤ 10 ^ (400 : ℤ) :=
  calc (2 : ℚ) ^ (1200 : ℤ) = (2 ^ (3 : ℤ)) ^ (400 : ℤ) := zpow_mul 2 3 400
    _ ≤ 10 ^ (400 : ℤ) := zpow_le_zpow_left₀ (by norm_num) (by norm_num) (by norm_num)

theorem ten_zpow_neg_le : (10 : ℚ) ^ (-400 : ℤ) ≤ 2 ^ (-1200 : ℤ) := by
  rw [zpow_neg, zpow_neg]
  exact inv_anti₀ (by positivity) two_zpow_le

/-- A decimal has no more digits before its point than a bound of its value allows. -/
theorem length_add_le_of_lt (hn : 0 < n) {b : ℤ} (h : (n * 10 ^ k : ℚ) < 10 ^ b) :
    ((Nat.toDigits 10 n).length : ℤ) + k ≤ b := by
  by_contra hsize
  have hpos : 0 < (Nat.toDigits 10 n).length := Nat.length_toDigits_pos
  refine absurd h (not_lt.mpr ?_)
  calc (10 : ℚ) ^ b ≤ 10 ^ (((Nat.toDigits 10 n).length - 1 : ℕ) + k) :=
        zpow_le_zpow_right₀ (by norm_num) (by omega)
    _ = (10 : ℚ) ^ ((Nat.toDigits 10 n).length - 1) * 10 ^ k := by
      rw [← zpow_natCast (10 : ℚ) ((Nat.toDigits 10 n).length - 1), ← zpow_add₀ (by norm_num)]
    _ ≤ n * 10 ^ k := by
      gcongr
      exact_mod_cast pow_length_le hn

/-- A decimal has no fewer digits before its point than a bound of its value asks for. -/
theorem le_length_add_of_le {b : ℤ} (h : (10 : ℚ) ^ b ≤ n * 10 ^ k) :
    b ≤ ((Nat.toDigits 10 n).length : ℤ) + k := by
  by_contra hsize
  refine absurd h (not_le.mpr ?_)
  calc (n * 10 ^ k : ℚ) < (10 : ℚ) ^ (Nat.toDigits 10 n).length * 10 ^ k := by
        gcongr
        exact_mod_cast lt_pow_length n
    _ = 10 ^ (((Nat.toDigits 10 n).length : ℤ) + k) := by
      rw [← zpow_natCast, ← zpow_add₀ (by norm_num)]
    _ ≤ 10 ^ b := zpow_le_zpow_right₀ (by norm_num) (by omega)

/-- A decimal whose value is a double reads as that double. -/
theorem ofDecimal_exact (hcanonical : (finite negative m e).IsCanonical) (hm : 0 < m)
    (h : (n * 10 ^ k : ℚ) = m * 2 ^ e) : ofDecimal negative n k = finite negative m e := by
  have ⟨hlt, hlow, hhigh, _⟩ := hcanonical
  have hn : 0 < n := by
    rcases Nat.eq_zero_or_pos n with rfl | hn
    · have hpos : (0 : ℚ) < m * 2 ^ e := by positivity
      simp [← h] at hpos
    · exact hn
  have hsmallest : (10 : ℚ) ^ (-400 : ℤ) ≤ n * 10 ^ k :=
    calc (10 : ℚ) ^ (-400 : ℤ) ≤ 2 ^ (-1200 : ℤ) := ten_zpow_neg_le
      _ ≤ 1 * 2 ^ e := by
        rw [one_mul]
        exact zpow_le_zpow_right₀ one_le_two (by omega)
      _ ≤ m * 2 ^ e := by
        gcongr
        exact_mod_cast hm
      _ = n * 10 ^ k := h.symm
  have hlargest : (n * 10 ^ k : ℚ) < 10 ^ (400 : ℤ) :=
    calc (n * 10 ^ k : ℚ) = m * 2 ^ e := h
      _ < 2 ^ (53 : ℤ) * 2 ^ e := by
        gcongr
        exact_mod_cast hlt
      _ ≤ 2 ^ (1200 : ℤ) := by
        rw [← zpow_add₀ two_ne_zero]
        exact zpow_le_zpow_right₀ one_le_two (by omega)
      _ ≤ 10 ^ (400 : ℤ) := two_zpow_le
  -- so the decimal is neither too small nor too large to be rounded
  obtain ⟨num, den, hden, hvalue, heq⟩ :=
    exists_ofDecimal_eq hn (le_length_add_of_le hsmallest) (length_add_le_of_lt hn hlargest)
  rw [heq]
  exact ofRatio_exact hcanonical hm hden (hvalue.trans h)

theorem ofDecimal_withSign (negative : Bool) (n : Nat) (k : ℤ) :
    ofDecimal negative n k = (ofDecimal false n k).withSign negative := by
  rcases Nat.eq_zero_or_pos n with rfl | hn
  · rfl
  by_cases hlow : (Nat.toDigits 10 n).length + k < -400
  · rw [ofDecimal_small hlow, ofDecimal_small hlow]
    rfl
  by_cases hhigh : 400 < (Nat.toDigits 10 n).length + k
  · rw [ofDecimal_large hn hhigh, ofDecimal_large hn hhigh]
    rfl
  obtain ⟨num, den, -, -, heq⟩ := exists_ofDecimal_eq hn (not_lt.mp hlow) (not_lt.mp hhigh)
  rw [heq, heq, ofRatio_withSign]

/-- Every decimal reads as a double in the form of the format. -/
theorem isCanonical_ofDecimal (negative : Bool) (n : Nat) (k : ℤ) :
    (ofDecimal negative n k).IsCanonical := by
  rcases Nat.eq_zero_or_pos n with rfl | hn
  · exact isCanonical_zero negative
  by_cases hlow : (Nat.toDigits 10 n).length + k < -400
  · rw [ofDecimal_small hlow]
    exact isCanonical_zero negative
  by_cases hhigh : 400 < (Nat.toDigits 10 n).length + k
  · rw [ofDecimal_large hn hhigh]
    trivial
  obtain ⟨num, den, hden, -, heq⟩ := exists_ofDecimal_eq hn (not_lt.mp hlow) (not_lt.mp hhigh)
  rw [heq]
  exact isCanonical_ofRatio hden

end

/-! ## The shortest decimal -/

section

variable {negative : Bool} {m : Nat} {e : ℤ}

/-- Zeros that are dropped are powers of ten. -/
theorem ofDecimal_normalize (negative : Bool) (fuel : Nat) (d : Decimal) :
    ofDecimal negative (d.normalize fuel).digits (d.normalize fuel).exponent
      = ofDecimal negative d.digits d.exponent := by
  induction fuel generalizing d with
  | zero => rfl
  | succ fuel ih =>
    rw [Decimal.normalize]
    split
    · next hzero =>
      simp only [Bool.and_eq_true, bne_iff_ne, beq_iff_eq] at hzero
      rw [ih, ← ofDecimal_mul_ten, Nat.div_mul_cancel (Nat.dvd_of_mod_eq_zero hzero.2)]
    · rfl

theorem exactDecimal_value (m : Nat) (e : ℤ) :
    ((exactDecimal m e).digits * 10 ^ (exactDecimal m e).exponent : ℚ) = m * 2 ^ e := by
  rw [exactDecimal]
  split
  · next he =>
    obtain ⟨j, rfl⟩ : ∃ j : ℕ, e = -j := ⟨(-e).toNat, by omega⟩
    have hten : (10 : ℚ) ^ j = 5 ^ j * 2 ^ j := by rw [← mul_pow]; norm_num
    have hfive : (5 : ℚ) ^ j ≠ 0 := by positivity
    simp only [neg_neg, Int.toNat_natCast, Nat.pow_eq, Nat.cast_mul, Nat.cast_pow, Nat.cast_ofNat,
      zpow_neg, zpow_natCast]
    rw [hten, mul_inv, mul_assoc, mul_inv_cancel_left₀ hfive]
  · next he =>
    obtain ⟨j, rfl⟩ : ∃ j : ℕ, e = j := ⟨e.toNat, by omega⟩
    simp

/-- Of two decimals tried one after the other, the one that is taken reads as it should. -/
theorem reads_of_tried (reads : Nat → Bool) {first second : Nat} {k : ℤ} {d : Decimal}
    (h : (if reads first then some ⟨first, k⟩ else if reads second then some ⟨second, k⟩ else none)
      = some d) :
    reads d.digits = true ∧ d.exponent = k := by
  split at h
  · next hreads =>
    cases h
    exact ⟨hreads, rfl⟩
  · split at h
    · next hreads =>
      cases h
      exact ⟨hreads, rfl⟩
    · cases h

theorem reads_of_nearestDecimal? {count : Nat} {d : Decimal}
    (h : nearestDecimal? m e count = some d) :
    ofDecimal false d.digits d.exponent = finite false m e := by
  unfold nearestDecimal? at h
  dsimp only at h
  obtain ⟨hreads, hk⟩ := reads_of_tried (fun digits ↦ ofDecimal false digits _ == finite false m e) h
  rw [hk]
  exact beq_iff_eq.mp hreads

/-- The shortest decimal of a double reads as that double. -/
theorem ofDecimal_shortest (h : (finite negative m e).IsCanonical) (hm : 0 < m) :
    ofDecimal negative (shortest m e).digits (shortest m e).exponent = finite negative m e := by
  rw [shortest, ofDecimal_normalize, ofDecimal_withSign]
  cases hfound : (List.range 17).findSome? fun i ↦ nearestDecimal? m e (i + 1) with
  | none =>
    -- 17 digits suffice for every double, but the exact decimal makes that no concern here
    have hfalse : (finite false m e).IsCanonical := h
    rw [Option.getD_none, ofDecimal_exact hfalse hm (exactDecimal_value m e)]
    rfl
  | some d =>
    obtain ⟨i, -, hi⟩ := List.exists_of_findSome?_eq_some hfound
    rw [Option.getD_some, reads_of_nearestDecimal? hi]
    rfl

theorem digits_shortest_pos (h : (finite negative m e).IsCanonical) (hm : 0 < m) :
    0 < (shortest m e).digits := by
  rw [Nat.pos_iff_ne_zero]
  intro hzero
  have hread := ofDecimal_shortest h hm
  rw [hzero, ofDecimal_zero] at hread
  exact hm.ne (finite.inj hread).2.1

end

end FeatureAtlas.Binary64
