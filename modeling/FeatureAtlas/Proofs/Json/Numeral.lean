import FeatureAtlas.Json.Printer
import FeatureAtlas.Proofs.Json.Grammar
import FeatureAtlas.Proofs.Number.Decimal

/-!
# Written numbers

The text of an integer or of a double is a numeral of the grammar with that value. For a double this does not
depend on where the point is placed: its digits and zeros around them always write the shortest decimal, and
that reads as the double.
-/

namespace FeatureAtlas.Json

/-! ## Digits -/

section

variable {n : Nat} {cs ds : List Char}

theorem digitsNat_eq (cs : List Char) : digitsNat cs = Nat.ofDigitChars 10 cs 0 := by
  rw [digitsNat, Nat.ofDigitChars_eq_foldl]
  simp only [Nat.mul_comm]

theorem digitsNat_toDigits (n : Nat) : digitsNat (Nat.toDigits 10 n) = n := by
  rw [digitsNat_eq, Nat.ofDigitChars_ten_toDigits]

theorem digitsNat_append_zeros (cs : List Char) (k : Nat) :
    digitsNat (cs ++ List.replicate k '0') = digitsNat cs * 10 ^ k := by
  rw [digitsNat_eq, digitsNat_eq, Nat.ofDigitChars_append, Nat.ofDigitChars_replicate_zero,
    Nat.mul_comm]

theorem digitsNat_zeros_append (k : Nat) (cs : List Char) :
    digitsNat (List.replicate k '0' ++ cs) = digitsNat cs := by
  rw [digitsNat_eq, digitsNat_eq, Nat.ofDigitChars_append, Nat.ofDigitChars_replicate_zero, Nat.mul_zero]

theorem isDigit_of_mem_zeros {k : Nat} : ∀ c ∈ List.replicate k '0', c.isDigit = true := by
  intro c hc
  rw [List.eq_of_mem_replicate hc]
  rfl

theorem isDigit_of_mem_toDigits (n : Nat) : ∀ c ∈ Nat.toDigits 10 n, c.isDigit = true :=
  fun _ ↦ Nat.isDigit_of_mem_toDigits (by decide) (by decide)

theorem isDigit_of_mem_append (hcs : ∀ c ∈ cs, c.isDigit = true) (hds : ∀ c ∈ ds, c.isDigit = true) :
    ∀ c ∈ cs ++ ds, c.isDigit = true := by
  intro c hc
  exact (List.mem_append.mp hc).elim (hcs c) (hds c)

/-- A positive number does not start with a zero. -/
theorem exists_toDigits_cons (hn : 0 < n) : ∃ d ds, Nat.toDigits 10 n = d :: ds ∧ d ≠ '0' := by
  induction n using Nat.strong_induction_on with
  | _ n ih =>
    rcases Nat.lt_or_ge n 10 with hlt | hge
    · have hdigit : ∀ d < 10, 0 < d → Nat.digitChar d ≠ '0' := by decide
      exact ⟨Nat.digitChar n, [], Nat.toDigits_of_lt_base hlt, hdigit n hlt hn⟩
    · obtain ⟨d, ds, htext, hd⟩ := ih (n / 10) (by omega) (by omega)
      refine ⟨d, ds ++ [Nat.digitChar (n % 10)], ?_, hd⟩
      rw [Nat.toDigits_of_base_le (by decide) hge, htext, List.cons_append]

end

/-! ## Integers -/

/-- Digits that may stand in front of a point. -/
def Leads (whole : List Char) : Prop := whole = ['0'] ∨ whole ≠ [] ∧ whole.head? ≠ some '0'

theorem leads_cons {d : Char} (hd : d ≠ '0') (ds : List Char) : Leads (d :: ds) :=
  Or.inr ⟨List.cons_ne_nil d ds, fun heq ↦ hd (Option.some.inj heq)⟩

theorem leads_toDigits (n : Nat) : Leads (Nat.toDigits 10 n) := by
  rcases Nat.eq_zero_or_pos n with rfl | hn
  · exact Or.inl rfl
  · obtain ⟨d, ds, htext, hd⟩ := exists_toDigits_cons hn
    rw [htext]
    exact leads_cons hd ds

/-- An integer is written by a numeral. -/
theorem exists_numeral_int (n : Int) : ∃ k : Numeral, k.text = intText n ∧ k.value = .int n := by
  refine ⟨⟨n < 0, Nat.toDigits 10 n.natAbs, [], none, leads_toDigits _, isDigit_of_mem_toDigits _, nofun⟩,
    ?_, ?_⟩
  · rw [Numeral.text, Numeral.pointText, Numeral.exponentText, intText]
    by_cases hn : n < 0 <;> simp [hn]
  · rw [Numeral.value]
    simp only [digitsNat_toDigits, decide_eq_true_eq, if_pos, int.injEq, Int.ofNat_eq_natCast]
    split <;> omega

/-! ## Doubles -/

section

variable {negative : Bool} {n m : Nat} {k e : Int}

/-- Digits with a point between them write a decimal. -/
def WritesPointed (negative : Bool) (n : Nat) (k : Int) (cs : List Char) : Prop :=
  ∃ whole places, cs = whole ++ '.' :: places ∧ Leads whole ∧ places ≠ [] ∧
    (∀ c ∈ whole ++ places, c.isDigit = true) ∧
    Binary64.ofDecimal negative (digitsNat (whole ++ places)) (-Int.ofNat places.length)
      = Binary64.ofDecimal negative n k

section

variable {d : Char} {ds : List Char} (hdigits : ∀ c ∈ d :: ds, c.isDigit = true)
  (hvalue : digitsNat (d :: ds) = n)
include hdigits hvalue

/-- Zeros between the point and the digits. -/
theorem writesPointed_zeros_digits (zeros : Nat) :
    WritesPointed negative n (-((zeros + (d :: ds).length : Nat) : Int))
      ('0' :: '.' :: (List.replicate zeros '0' ++ d :: ds)) := by
  refine ⟨['0'], List.replicate zeros '0' ++ d :: ds, rfl, Or.inl rfl, by simp, ?_, ?_⟩
  · exact isDigit_of_mem_append (isDigit_of_mem_zeros (k := 1))
      (isDigit_of_mem_append isDigit_of_mem_zeros hdigits)
  · have hzero : ['0'] = List.replicate 1 '0' := rfl
    rw [hzero, digitsNat_zeros_append, digitsNat_zeros_append, hvalue, List.length_append,
      List.length_replicate]
    rfl

/-- Zeros between the digits and the point. -/
theorem writesPointed_digits_zeros (hd : d ≠ '0') (zeros : Nat) :
    WritesPointed negative n zeros (d :: ds ++ List.replicate zeros '0' ++ ['.', '0']) := by
  refine ⟨d :: ds ++ List.replicate zeros '0', ['0'], rfl, leads_cons hd _, List.cons_ne_nil _ _, ?_, ?_⟩
  · exact isDigit_of_mem_append (isDigit_of_mem_append hdigits isDigit_of_mem_zeros)
      (isDigit_of_mem_zeros (k := 1))
  · have hzero : ['0'] = List.replicate 1 '0' := rfl
    rw [hzero, List.append_assoc, List.replicate_append_replicate, digitsNat_append_zeros, hvalue,
      Binary64.ofDecimal_mul_pow]
    congr 1
    simp only [List.length_replicate, Int.ofNat_eq_natCast, Nat.cast_add]
    omega

/-- The point among the digits. -/
theorem writesPointed_take_drop (hd : d ≠ '0') {w : Nat} (hw : w < ds.length) :
    WritesPointed negative n ((w : Int) - ds.length)
      ((d :: ds).take (w + 1) ++ '.' :: (d :: ds).drop (w + 1)) := by
  refine ⟨(d :: ds).take (w + 1), (d :: ds).drop (w + 1), rfl, leads_cons hd _, ?_, ?_, ?_⟩
  · rw [List.drop_succ_cons, Ne, List.drop_eq_nil_iff]
    omega
  · rwa [List.take_append_drop]
  · rw [List.take_append_drop, hvalue, List.drop_succ_cons, List.length_drop]
    congr 1
    simp only [Int.ofNat_eq_natCast]
    omega

end

/-- Wherever the point is placed, the text writes the same decimal. -/
theorem writesPointed_placePoint (negative : Bool) (hn : 0 < n) (k : Int) :
    WritesPointed negative n k
      (Binary64.placePoint (Nat.toDigits 10 n) (Int.ofNat (Nat.toDigits 10 n).length + k)) := by
  have hdigits := isDigit_of_mem_toDigits n
  have hvalue := digitsNat_toDigits n
  obtain ⟨d, ds, htext, hd⟩ := exists_toDigits_cons hn
  rw [htext] at hdigits hvalue ⊢
  rw [Binary64.placePoint, Int.ofNat_eq_natCast]
  split
  · next hsmall =>
    obtain ⟨zeros, hzeros⟩ : ∃ zeros : Nat, -(((d :: ds).length : Int) + k) = zeros :=
      ⟨(-(((d :: ds).length : Int) + k)).toNat, by omega⟩
    have hk : k = -((zeros + (d :: ds).length : Nat) : Int) := by omega
    rw [hzeros, Int.toNat_natCast, hk]
    exact writesPointed_zeros_digits hdigits hvalue zeros
  · split
    · next hlarge =>
      obtain ⟨zeros, rfl⟩ : ∃ zeros : Nat, k = zeros := ⟨k.toNat, by omega⟩
      rw [add_sub_cancel_left, Int.toNat_natCast]
      exact writesPointed_digits_zeros hdigits hvalue hd zeros
    · next hlarge =>
      rw [List.length_cons] at *
      obtain ⟨w, hw⟩ : ∃ w : Nat, (((ds.length + 1 : Nat) : Int) + k) = (w + 1 : Nat) :=
        ⟨(((ds.length + 1 : Nat) : Int) + k).toNat - 1, by omega⟩
      have hk : k = (w : Int) - ds.length := by omega
      rw [hw, Int.toNat_natCast, hk]
      exact writesPointed_take_drop hdigits hvalue hd (by omega)

/-- An exponent is written by one of the grammar, also where a zero fills it up to two digits. -/
theorem exists_exponent_text (e : Int) :
    ∃ x : Exponent, x.text = 'e' :: Binary64.exponentText e ∧ x.value = e := by
  obtain ⟨ds, hpadded, hne, hdigits, hvalue⟩ : ∃ ds, (if (Nat.toDigits 10 e.natAbs).length < 2 then
      '0' :: Nat.toDigits 10 e.natAbs else Nat.toDigits 10 e.natAbs) = ds ∧ ds ≠ [] ∧
        (∀ c ∈ ds, c.isDigit = true) ∧ digitsNat ds = e.natAbs := by
    refine ⟨_, rfl, ?_, ?_, ?_⟩ <;> split
    · exact List.cons_ne_nil _ _
    · exact Nat.toDigits_ne_nil
    · exact isDigit_of_mem_append (isDigit_of_mem_zeros (k := 1)) (isDigit_of_mem_toDigits _)
    · exact isDigit_of_mem_toDigits _
    · exact (digitsNat_zeros_append 1 _).trans (digitsNat_toDigits _)
    · exact digitsNat_toDigits _
  rw [Binary64.exponentText, hpadded]
  by_cases he : e < 0
  · refine ⟨⟨'e', ['-'], ds, Or.inl rfl, Or.inr (Or.inr rfl), hne, hdigits⟩, ?_, ?_⟩
    · rw [Exponent.text, if_pos he]
      rfl
    · rw [Exponent.value, if_pos rfl, hvalue, Int.ofNat_eq_natCast]
      omega
  · refine ⟨⟨'e', ['+'], ds, Or.inl rfl, Or.inr (Or.inl rfl), hne, hdigits⟩, ?_, ?_⟩
    · rw [Exponent.text, if_neg he]
      rfl
    · have hsign : ['+'] ≠ ['-'] := by decide
      rw [Exponent.value, if_neg hsign, hvalue, Int.ofNat_eq_natCast]
      omega

theorem exists_numeral_pointed {cs : List Char} (h : WritesPointed negative n k cs) :
    ∃ x : Numeral, x.text = (if negative then ['-'] else []) ++ cs ∧
      x.value = .float (Binary64.ofDecimal negative n k) := by
  obtain ⟨whole, places, rfl, hleads, hne, hdigits, hvalue⟩ := h
  obtain ⟨hwhole, hplaces⟩ := List.forall_mem_append.mp hdigits
  refine ⟨⟨negative, whole, places, none, hleads, hwhole, hplaces⟩, ?_, ?_⟩
  · simp [Numeral.text, Numeral.pointText, Numeral.exponentText, hne]
  · rw [Numeral.value]
    exact (if_neg hne).trans (congrArg float hvalue)

/-- One digit in front of the point, or no point, and an exponent write a decimal. -/
theorem exists_numeral_exponent (negative : Bool) (hn : 0 < n) (k : Int) :
    ∃ x : Numeral,
      x.text = (if negative then ['-'] else []) ++ (Nat.toDigits 10 n).take 1 ++
        (if ((Nat.toDigits 10 n).drop 1).isEmpty then [] else '.' :: (Nat.toDigits 10 n).drop 1) ++
        'e' :: Binary64.exponentText (Int.ofNat (Nat.toDigits 10 n).length + k - 1) ∧
      x.value = .float (Binary64.ofDecimal negative n k) := by
  obtain ⟨e, htext, hvalue⟩ := exists_exponent_text (Int.ofNat (Nat.toDigits 10 n).length + k - 1)
  have hdigits := isDigit_of_mem_toDigits n
  have hnumber := digitsNat_toDigits n
  obtain ⟨d, ds, hcons, hd⟩ := exists_toDigits_cons hn
  rw [hcons] at hdigits hnumber hvalue htext ⊢
  obtain ⟨hfirst, hrest⟩ := List.forall_mem_cons.mp hdigits
  refine ⟨⟨negative, [d], ds, some e, leads_cons hd [], by simpa using hfirst, hrest⟩, ?_, ?_⟩
  · rw [← htext]
    simp [Numeral.text, Numeral.pointText, Numeral.exponentText]
  · rw [Numeral.value]
    simp only [List.singleton_append, hnumber, hvalue, List.length_cons, Int.ofNat_eq_natCast]
    congr 2
    push_cast
    ring

/-- **A double is written by a numeral that reads as this double.** -/
theorem exists_numeral_float (h : (Binary64.finite negative m e).IsCanonical) :
    ∃ x : Numeral, x.text = Binary64.finiteText negative m e ∧ x.value = .float (.finite negative m e) := by
  unfold Binary64.finiteText
  rcases Nat.eq_zero_or_pos m with rfl | hm
  · have he : e = -1074 := h.2.2.2.resolve_left (by decide)
    have hzero : WritesPointed negative 0 0 ['0', '.', '0'] :=
      ⟨['0'], ['0'], rfl, Or.inl rfl, List.cons_ne_nil _ _, isDigit_of_mem_zeros (k := 2), rfl⟩
    rw [he]
    exact exists_numeral_pointed hzero
  · rw [if_neg (by simpa using hm.ne'), ← Binary64.ofDecimal_shortest h hm]
    have hpos := Binary64.digits_shortest_pos h hm
    dsimp only
    generalize Binary64.shortest m e = d at *
    split
    · exact exists_numeral_pointed (writesPointed_placePoint negative hpos _)
    · exact exists_numeral_exponent negative hpos _

end

end FeatureAtlas.Json
