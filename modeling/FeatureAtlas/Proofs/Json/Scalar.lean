import FeatureAtlas.Proofs.Except
import FeatureAtlas.Proofs.Json.Grammar

/-!
# Reading scalars

A reader *reads* a value off a text if it returns the value and stops where the text goes on. For strings,
numbers and names both directions hold: what the grammar writes is read back, and what is read was written.
A number has no end of its own, so it is only read back in front of what may follow a value.
-/

namespace FeatureAtlas.Json

variable {α : Type}

/-- The reader returns the value and stops in front of the rest. -/
def Reads (result : Except ReadError (α × Cursor)) (a : α) (rest : List Char) : Prop :=
  ∃ position, result = .ok (a, ⟨position, rest⟩)

/-! ## Escapes -/

section

variable {a b c d : Char} {n : Nat} {position : Nat}

theorem not_length_le_four {tail : List Char} (hne : tail ≠ []) :
    ¬ (a :: b :: c :: d :: tail).length ≤ 4 := by
  have hpos := List.length_pos_iff.mpr hne
  simp only [List.length_cons]
  omega

theorem unicodeEscape_cons (h : hex4? [a, b, c, d] = some n) {tail : List Char} (hne : tail ≠ []) :
    unicodeEscape position (a :: b :: c :: d :: tail)
      = if 0xd800 ≤ n && n ≤ 0xdbff && 6 < tail.length && tail.take 2 == ['\\', 'u'] then
          match hex4? ((tail.drop 2).take 4) with
          | none => fail .badUnicodeEscape (position + 6)
          | some lo =>
            if 0xdc00 ≤ lo && lo ≤ 0xdfff then .ok (Glyph.pairChar n lo, 10)
            else .ok (unitChar n, 4)
        else .ok (unitChar n, 4) := by
  have htake : (a :: b :: c :: d :: tail).take 4 = [a, b, c, d] := rfl
  rw [unicodeEscape, if_neg (not_length_le_four hne), htake, h]
  rfl

/-- In front of another code unit a unit is joined with it, if they are a surrogate pair. -/
theorem unicodeEscape_unit (h : hex4? [a, b, c, d] = some n) {a' b' c' d' : Char} {m : Nat}
    (h' : hex4? [a', b', c', d'] = some m) {more : List Char} (hne : more ≠ []) :
    unicodeEscape position (a :: b :: c :: d :: '\\' :: 'u' :: a' :: b' :: c' :: d' :: more)
      = .ok (if Glyph.isPair n m then (Glyph.pairChar n m, 10) else (unitChar n, 4)) := by
  have hlength : 6 < ('\\' :: 'u' :: a' :: b' :: c' :: d' :: more).length := by
    have := List.length_pos_iff.mpr hne
    simp only [List.length_cons]
    omega
  have hdigits : (('\\' :: 'u' :: a' :: b' :: c' :: d' :: more).drop 2).take 4 = [a', b', c', d'] :=
    rfl
  have hmark : ('\\' :: 'u' :: a' :: b' :: c' :: d' :: more).take 2 == ['\\', 'u'] := rfl
  rw [unicodeEscape_cons h (List.cons_ne_nil _ _), hdigits, h', hmark, decide_eq_true hlength,
    Bool.and_true, Bool.and_true]
  cases hhi : decide (0xd800 ≤ n) && decide (n ≤ 0xdbff) with
  | false => simp [Glyph.isPair, hhi]
  | true =>
    dsimp only
    rw [if_pos rfl, Glyph.isPair, hhi, Bool.true_and]
    split <;> rfl

/-- In front of anything else a unit stands for itself. -/
theorem unicodeEscape_alone (h : hex4? [a, b, c, d] = some n) {tail : List Char} (hne : tail ≠ [])
    (htail : tail.take 2 ≠ ['\\', 'u']) :
    unicodeEscape position (a :: b :: c :: d :: tail) = .ok (unitChar n, 4) := by
  rw [unicodeEscape_cons h hne, if_neg]
  simp [htail]

/-- An escape that is read starts with four digits, and the text goes on behind them. -/
theorem exists_digits_of_unicodeEscape {rest : List Char} {found : Char × Nat}
    (hread : unicodeEscape position rest = .ok found) :
    ∃ a b c d n tail, tail ≠ [] ∧ rest = a :: b :: c :: d :: tail ∧ hex4? [a, b, c, d] = some n := by
  obtain ⟨a, b, c, d, tail, hne, rfl⟩ :
      ∃ a b c d tail, tail ≠ [] ∧ rest = a :: b :: c :: d :: tail := by
    match rest with
    | a :: b :: c :: d :: e :: tail => exact ⟨a, b, c, d, e :: tail, List.cons_ne_nil _ _, rfl⟩
    | [] | [_] | [_, _] | [_, _, _] | [_, _, _, _] => cases hread
  have htake : (a :: b :: c :: d :: tail).take 4 = [a, b, c, d] := rfl
  rw [unicodeEscape, if_neg (not_length_le_four hne), htake] at hread
  cases hhex : hex4? [a, b, c, d] with
  | none =>
    rw [hhex] at hread
    cases hread
  | some n => exact ⟨a, b, c, d, n, tail, hne, rfl, hhex⟩

theorem exists_escape_of_take {tail : List Char} (hlength : 6 < tail.length)
    (htake : tail.take 2 = ['\\', 'u']) :
    ∃ a b c d more, more ≠ [] ∧ tail = '\\' :: 'u' :: a :: b :: c :: d :: more := by
  match tail with
  | e :: u :: a :: b :: c :: d :: f :: more =>
    cases htake
    exact ⟨a, b, c, d, f :: more, List.cons_ne_nil _ _, rfl⟩
  | [] | [_] | [_, _] | [_, _, _] | [_, _, _, _] | [_, _, _, _, _] | [_, _, _, _, _, _] =>
    simp at hlength

/-- An escape that is read is a code unit, or the two of a surrogate pair. -/
theorem exists_of_unicodeEscape {rest : List Char} {ch : Char} {k : Nat}
    (hread : unicodeEscape position rest = .ok (ch, k)) :
    ∃ a b c d n tail, rest = a :: b :: c :: d :: tail ∧ hex4? [a, b, c, d] = some n ∧
      ((k = 4 ∧ ch = unitChar n) ∨
        ∃ a' b' c' d' m more, tail = '\\' :: 'u' :: a' :: b' :: c' :: d' :: more ∧
          hex4? [a', b', c', d'] = some m ∧ Glyph.isPair n m = true ∧ k = 10 ∧
          ch = Glyph.pairChar n m) := by
  obtain ⟨a, b, c, d, n, tail, hne, rfl, hhex⟩ := exists_digits_of_unicodeEscape hread
  refine ⟨a, b, c, d, n, tail, rfl, hhex, ?_⟩
  have hcons := hread
  rw [unicodeEscape_cons hhex hne] at hcons
  split at hcons
  · next hcond =>
    simp only [Bool.and_eq_true, decide_eq_true_eq, beq_iff_eq] at hcond
    obtain ⟨a', b', c', d', more, hmore, rfl⟩ := exists_escape_of_take hcond.1.2 hcond.2
    have hdigits : (('\\' :: 'u' :: a' :: b' :: c' :: d' :: more).drop 2).take 4
        = [a', b', c', d'] := rfl
    cases hhex' : hex4? [a', b', c', d'] with
    | none =>
      rw [hdigits, hhex'] at hcons
      cases hcons
    | some m =>
      rw [unicodeEscape_unit hhex hhex' hmore] at hread
      cases hpair : Glyph.isPair n m with
      | true =>
        rw [if_pos hpair] at hread
        obtain ⟨hch, hk⟩ := Prod.mk.inj (Except.ok.inj hread)
        exact Or.inr ⟨a', b', c', d', m, more, rfl, hhex', hpair, hk.symm, hch.symm⟩
      | false =>
        rw [hpair, if_neg Bool.false_ne_true] at hread
        cases hread
        exact Or.inl ⟨rfl, rfl⟩
  · cases hcons
    exact Or.inl ⟨rfl, rfl⟩

end

/-! ## Strings -/

section

variable {start fuel p : Nat} {acc r : List Char}

theorem readChars_quote :
    readChars start (fuel + 1) ⟨p, '"' :: r⟩ acc = .ok (acc.reverse, ⟨p + 1, r⟩) := rfl

theorem readChars_plain {c : Char} (h : c ≠ '"' ∧ c ≠ '\\' ∧ 32 ≤ c.toNat) :
    readChars start (fuel + 1) ⟨p, c :: r⟩ acc = readChars start fuel ⟨p + 1, r⟩ (c :: acc) := by
  obtain ⟨hquote, hback, hcontrol⟩ := h
  rw [readChars]
  dsimp only
  split
  case h_1 heq => cases heq
  case h_2 heq => exact absurd (List.cons.inj heq).1 hquote
  case h_3 heq => exact absurd (List.cons.inj heq).1 hback
  case h_4 heq => exact absurd (List.cons.inj heq).1 hback
  case h_5 heq => exact absurd (List.cons.inj heq).1 hback
  case h_6 heq =>
    obtain ⟨rfl, rfl⟩ := List.cons.inj heq
    exact if_neg (Nat.not_lt.mpr hcontrol)

theorem readChars_escape {e c : Char} (h : simpleEscape? e = some c) :
    readChars start (fuel + 1) ⟨p, '\\' :: e :: r⟩ acc
      = readChars start fuel ⟨p + 2, r⟩ (c :: acc) := by
  have hu : e ≠ 'u' := by
    rintro rfl
    cases h
  rw [readChars.eq_def]
  split <;> simp_all

theorem readChars_unicode {c : Char} {n : Nat} (h : unicodeEscape (p + 1) r = .ok (c, n)) :
    readChars start (fuel + 1) ⟨p, '\\' :: 'u' :: r⟩ acc
      = readChars start fuel ⟨p + (2 + n), r.drop n⟩ (c :: acc) := by
  have hdrop : Cursor.advance ⟨p, '\\' :: 'u' :: r⟩ (2 + n) = ⟨p + (2 + n), r.drop n⟩ := by
    rw [Cursor.advance, Nat.add_comm 2 n]
    rfl
  rw [← hdrop, readChars.eq_def]
  simp only [h]
  rfl

theorem Glyph.textAll_cons (g : Glyph) (gs : List Glyph) :
    Glyph.textAll (g :: gs) = g.text ++ Glyph.textAll gs := rfl

/-- A glyph that is no code unit does not look like one. -/
theorem Glyph.take_two_ne {g : Glyph} (h : ∀ a b c d n hn, g ≠ unit a b c d n hn) :
    (g.text ++ r).take 2 ≠ ['\\', 'u'] := by
  intro heq
  cases g with
  | plain c hc => exact hc.2.1 (List.cons.inj heq).1
  | escape e c he =>
    obtain rfl : e = 'u' := (List.cons.inj (List.cons.inj heq).2).1
    cases he
  | unit a b c d n hn => exact h a b c d n hn rfl

theorem reads_of_step {result result' : Except ReadError (List Char × Cursor)} {c : Char}
    {cs : List Char} (hstep : result = result') (h : Reads result' ((c :: acc).reverse ++ cs) r) :
    Reads result (acc.reverse ++ c :: cs) r := by
  rwa [hstep, ← List.singleton_append, ← List.append_assoc, ← List.reverse_cons]

/-- The reader reads what glyphs stand for. -/
theorem reads_readChars (gs : List Glyph) (hfuel : gs.length < fuel) :
    Reads (readChars start fuel ⟨p, Glyph.textAll gs ++ '"' :: r⟩ acc)
      (acc.reverse ++ Glyph.decode gs) r := by
  -- Each step of the reader takes one glyph, or the two of a surrogate pair.
  induction gs using Glyph.decode.induct generalizing fuel p acc with
  | case1 =>
    obtain ⟨fuel, rfl⟩ := Nat.exists_eq_add_one_of_ne_zero (Nat.ne_zero_of_lt hfuel)
    exact ⟨p + 1, readChars_quote.trans (by rw [Glyph.decode, List.append_nil])⟩
  | case2 c h rest ih =>
    obtain ⟨fuel, rfl⟩ := Nat.exists_eq_add_one_of_ne_zero (Nat.ne_zero_of_lt hfuel)
    exact reads_of_step (readChars_plain h) (ih (Nat.lt_of_succ_lt_succ hfuel))
  | case3 e c h rest ih =>
    obtain ⟨fuel, rfl⟩ := Nat.exists_eq_add_one_of_ne_zero (Nat.ne_zero_of_lt hfuel)
    exact reads_of_step (readChars_escape h) (ih (Nat.lt_of_succ_lt_succ hfuel))
  | case4 a b c d n h =>
    obtain ⟨fuel, rfl⟩ : ∃ k, fuel = k + 2 := ⟨fuel - 2, by simp at hfuel; omega⟩
    have hescape : unicodeEscape (p + 1) (a :: b :: c :: d :: '"' :: r) = .ok (unitChar n, 4) :=
      unicodeEscape_alone h (List.cons_ne_nil _ _)
        fun heq ↦ absurd (List.cons.inj heq).1 (by decide)
    exact reads_of_step (readChars_unicode hescape)
      ⟨p + 7, readChars_quote.trans (by rw [List.append_nil])⟩
  | case5 a b c d n h a' b' c' d' m h' rest hpair ih =>
    obtain ⟨fuel, rfl⟩ := Nat.exists_eq_add_one_of_ne_zero (Nat.ne_zero_of_lt hfuel)
    have hrest : rest.length < fuel := by
      rw [List.length_cons, List.length_cons] at hfuel
      omega
    have hescape : unicodeEscape (p + 1) (a :: b :: c :: d :: '\\' :: 'u' :: a' :: b' :: c' :: d' ::
        (Glyph.textAll rest ++ '"' :: r)) = .ok (Glyph.pairChar n m, 10) := by
      rw [unicodeEscape_unit h h' (by simp), if_pos hpair]
    rw [Glyph.decode, if_pos hpair]
    exact reads_of_step (readChars_unicode hescape) (ih hrest)
  | case6 a b c d n h a' b' c' d' m h' rest hpair ih =>
    obtain ⟨fuel, rfl⟩ := Nat.exists_eq_add_one_of_ne_zero (Nat.ne_zero_of_lt hfuel)
    have hescape : unicodeEscape (p + 1) (a :: b :: c :: d :: '\\' :: 'u' :: a' :: b' :: c' :: d' ::
        (Glyph.textAll rest ++ '"' :: r)) = .ok (unitChar n, 4) := by
      rw [unicodeEscape_unit h h' (by simp), if_neg hpair]
    rw [Glyph.decode, if_neg hpair]
    exact reads_of_step (readChars_unicode hescape) (ih (Nat.lt_of_succ_lt_succ hfuel))
  | case7 a b c d n h g rest hg ih =>
    obtain ⟨fuel, rfl⟩ := Nat.exists_eq_add_one_of_ne_zero (Nat.ne_zero_of_lt hfuel)
    have hescape : unicodeEscape (p + 1) (a :: b :: c :: d :: (Glyph.textAll (g :: rest) ++ '"' :: r))
        = .ok (unitChar n, 4) := by
      refine unicodeEscape_alone h (by simp) ?_
      rw [Glyph.textAll_cons, List.append_assoc]
      exact Glyph.take_two_ne hg
    rw [Glyph.decode]
    · exact reads_of_step (readChars_unicode hescape) (ih (Nat.lt_of_succ_lt_succ hfuel))
    · exact hg

theorem Glyph.decode_unit_cons {a b c d : Char} {n : Nat} (h : hex4? [a, b, c, d] = some n)
    {gs : List Glyph}
    (hgs : ∀ a' b' c' d' m h' rest, gs = unit a' b' c' d' m h' :: rest → isPair n m = false) :
    decode (unit a b c d n h :: gs) = unitChar n :: decode gs := by
  match gs with
  | [] => rfl
  | plain c' h' :: rest => rfl
  | escape e c' h' :: rest => rfl
  | unit a' b' c' d' m h' :: rest =>
    rw [decode, if_neg]
    rw [hgs a' b' c' d' m h' rest rfl]
    exact Bool.false_ne_true

/-- An escape that is read in front of glyphs is one glyph more, or the two of a surrogate pair. -/
theorem exists_glyphs_of_unicodeEscape {rest : List Char} {ch : Char} {k : Nat} {gs : List Glyph}
    (h : unicodeEscape p rest = .ok (ch, k)) (hgs : rest.drop k = Glyph.textAll gs ++ '"' :: r) :
    ∃ gs', '\\' :: 'u' :: rest = Glyph.textAll gs' ++ '"' :: r ∧
      Glyph.decode gs' = ch :: Glyph.decode gs := by
  obtain ⟨a, b, c, d, n, tail, rfl, hhex, ⟨rfl, rfl⟩ | hpair⟩ := exists_of_unicodeEscape h
  · refine ⟨.unit a b c d n hhex :: gs, congrArg (['\\', 'u', a, b, c, d] ++ ·) hgs, ?_⟩
    refine Glyph.decode_unit_cons hhex ?_
    -- The unit was read alone, so no low surrogate follows it.
    rintro a' b' c' d' m h' rest rfl
    have htail : tail = '\\' :: 'u' :: a' :: b' :: c' :: d' :: (Glyph.textAll rest ++ '"' :: r) := hgs
    rw [htail, unicodeEscape_unit hhex h' (by simp)] at h
    cases hpair : Glyph.isPair n m with
    | false => rfl
    | true =>
      rw [if_pos hpair] at h
      exact absurd (Prod.mk.inj (Except.ok.inj h)).2 (by decide)
  · obtain ⟨a', b', c', d', m, more, rfl, hhex', hpair, hk, hch⟩ := hpair
    rw [hk] at hgs
    refine ⟨.unit a b c d n hhex :: .unit a' b' c' d' m hhex' :: gs,
      congrArg (['\\', 'u', a, b, c, d, '\\', 'u', a', b', c', d'] ++ ·) hgs, ?_⟩
    rw [Glyph.decode, if_pos hpair, hch]

/-- What the reader reads is a string that glyphs write. -/
theorem exists_glyphs_of_readChars {c c' : Cursor} {cs : List Char}
    (h : readChars start fuel c acc = .ok (cs, c')) :
    ∃ gs, c.rest = Glyph.textAll gs ++ '"' :: c'.rest ∧ cs = acc.reverse ++ Glyph.decode gs := by
  induction fuel generalizing c acc with
  | zero => cases h
  | succ fuel ih =>
    rw [readChars] at h
    split at h
    · cases h
    · next rest hrest =>
      cases h
      exact ⟨[], hrest, (List.append_nil _).symm⟩
    · cases h
    · next rest hrest =>
      obtain ⟨⟨ch, k⟩, hescape, h⟩ := bind_eq_ok.mp h
      obtain ⟨gs, hgs, rfl⟩ := ih h
      rw [Cursor.advance, hrest, Nat.add_comm 2 k] at hgs
      obtain ⟨gs', htext, hdecode⟩ := exists_glyphs_of_unicodeEscape hescape hgs
      refine ⟨gs', hrest.trans htext, ?_⟩
      rw [hdecode, List.reverse_cons, List.append_assoc, List.singleton_append]
    · next e rest hu hrest =>
      split at h
      · next ch hch =>
        obtain ⟨gs, hgs, rfl⟩ := ih h
        refine ⟨.escape e ch hch :: gs, ?_, ?_⟩
        · rw [hrest, Glyph.textAll_cons, List.append_assoc, ← hgs]
          rfl
        · rw [List.reverse_cons, List.append_assoc]
          rfl
      · cases h
    · next ch rest hquote hlast hu hback hrest =>
      split at h
      · cases h
      · next hcontrol =>
        obtain ⟨gs, hgs, rfl⟩ := ih h
        have hglyph : ch ≠ '"' ∧ ch ≠ '\\' ∧ 32 ≤ ch.toNat := by
          refine ⟨hquote, fun hch ↦ ?_, Nat.not_lt.mp hcontrol⟩
          cases rest with
          | nil => exact hlast hch rfl
          | cons e rest => exact hback e rest hch rfl
        refine ⟨.plain ch hglyph :: gs, ?_, ?_⟩
        · rw [hrest, Glyph.textAll_cons, List.append_assoc, ← hgs]
          rfl
        · rw [List.reverse_cons, List.append_assoc]
          rfl

end

theorem Glyph.length_le_textAll (gs : List Glyph) : gs.length ≤ (Glyph.textAll gs).length := by
  induction gs with
  | nil => exact Nat.le_refl 0
  | cons g gs ih =>
    have hg : 1 ≤ g.text.length := by
      cases g <;> exact Nat.succ_le_succ (Nat.zero_le _)
    rw [textAll_cons, List.length_append, List.length_cons]
    omega

/-- The reader reads a string after its opening quote. -/
theorem reads_readString (gs : List Glyph) (p : Nat) (r : List Char) :
    Reads (readString ⟨p, Glyph.textAll gs ++ '"' :: r⟩) (String.ofList (Glyph.decode gs)) r := by
  have hfuel : gs.length < (Glyph.textAll gs ++ '"' :: r).length + 1 := by
    have hlength := Glyph.length_le_textAll gs
    rw [List.length_append]
    omega
  obtain ⟨q, hq⟩ : Reads (readChars (p - 1) _ ⟨p, Glyph.textAll gs ++ '"' :: r⟩ []) _ r :=
    reads_readChars gs hfuel
  refine ⟨q, ?_⟩
  rw [readString, hq]
  rfl

theorem exists_glyphs_of_readString {c c' : Cursor} {s : String}
    (h : readString c = .ok (s, c')) :
    ∃ gs, c.rest = Glyph.textAll gs ++ '"' :: c'.rest ∧ s = String.ofList (Glyph.decode gs) := by
  obtain ⟨⟨cs, c₁⟩, hread, hreturn⟩ := bind_eq_ok.mp h
  cases hreturn
  obtain ⟨gs, hrest, hcs⟩ := exists_glyphs_of_readChars hread
  exact ⟨gs, hrest, congrArg String.ofList hcs⟩

/-! ## Numbers -/

/-- The text does not go on with a digit. -/
def NoDigit (r : List Char) : Prop := ∀ c ∈ r.head?, c.isDigit = false

/-- The text goes on with what may follow a value: a blank, a comma, a closing bracket or nothing. -/
def Follows (r : List Char) : Prop := ∀ c ∈ r.head?, isSpace c = true ∨ c = ',' ∨ c = ']' ∨ c = '}'

theorem takeWhile_isDigit {digits r : List Char} (h : ∀ c ∈ digits, c.isDigit = true)
    (hr : NoDigit r) : (digits ++ r).takeWhile Char.isDigit = digits := by
  rw [List.takeWhile_append_of_pos h]
  cases r with
  | nil => simp
  | cons c r => simp [hr c rfl]

theorem noDigit_of_isSpace {c : Char} (h : isSpace c = true) : c.isDigit = false := by
  simp only [isSpace, Bool.or_eq_true, beq_iff_eq] at h
  rcases h with ((rfl | rfl) | rfl) | rfl <;> rfl

theorem Follows.noDigit {r : List Char} (h : Follows r) : NoDigit r := by
  intro c hc
  rcases h c hc with hspace | rfl | rfl | rfl
  · exact noDigit_of_isSpace hspace
  · rfl
  · rfl
  · rfl

theorem Follows.head_ne {r : List Char} (h : Follows r) {c : Char}
    (hc : isSpace c = false ∧ c ≠ ',' ∧ c ≠ ']' ∧ c ≠ '}') (rest : List Char) : r ≠ c :: rest := by
  rintro rfl
  rcases h c rfl with hspace | heq | heq | heq
  · rw [hc.1] at hspace
    cases hspace
  · exact hc.2.1 heq
  · exact hc.2.2.1 heq
  · exact hc.2.2.2 heq

section

variable {r : List Char}

/-! ### Exponents -/

theorem Exponent.noDigit (e : Exponent) : NoDigit (e.text ++ r) := by
  intro c hc
  obtain rfl : e.mark = c := Option.some.inj hc
  rcases e.mark_eq with h | h <;> rw [h] <;> rfl

theorem exponentSign_exponent (e : Exponent) :
    exponentSign (e.sign ++ (e.digits ++ r)) = (e.sign, e.digits ++ r) := by
  rcases e.sign_eq with h | h | h
  · obtain ⟨d, ds, hdigits⟩ := List.exists_cons_of_ne_nil e.digits_ne
    have hd : d.isDigit = true := e.isDigit_of_mem d (hdigits ▸ List.mem_cons_self)
    rw [h, hdigits, List.nil_append, List.cons_append, exponentSign]
    · rintro more heq
      rw [(List.cons.inj heq).1] at hd
      cases hd
    · rintro more heq
      rw [(List.cons.inj heq).1] at hd
      cases hd
  · rw [h]
    rfl
  · rw [h]
    rfl

theorem exponentPart?_exponent (e : Exponent) (h : NoDigit r) :
    exponentPart? (e.text ++ r) = some (e.text.length, e.value) := by
  have hmark : (e.mark == 'e' || e.mark == 'E') = true := by simpa using e.mark_eq
  have hne : ¬ e.digits.isEmpty = true := by simpa using e.digits_ne
  rw [Exponent.text, List.cons_append, List.append_assoc, exponentPart?, if_pos hmark,
    exponentSign_exponent]
  simp only [takeWhile_isDigit e.isDigit_of_mem h, if_neg hne, Exponent.value]
  simp only [List.length_cons, List.length_append, Option.some.injEq, Prod.mk.injEq, and_true]
  omega

theorem exponentPart?_follows (h : Follows r) : exponentPart? r = none := by
  cases r with
  | nil => rfl
  | cons c r =>
    have hmark : ¬ (c == 'e' || c == 'E') = true := by
      rw [Bool.or_eq_true, beq_iff_eq, beq_iff_eq]
      rintro (rfl | rfl)
      · exact h.head_ne (by decide) r rfl
      · exact h.head_ne (by decide) r rfl
    rw [exponentPart?, if_neg hmark]

/-! ### Numerals -/

variable (n : Numeral)

theorem Numeral.noDigit_exponentText (h : Follows r) : NoDigit (n.exponentText ++ r) := by
  rw [exponentText]
  cases n.exponent with
  | none => exact h.noDigit
  | some e => exact e.noDigit

theorem Numeral.noDigit_pointText (h : Follows r) :
    NoDigit (n.pointText ++ (n.exponentText ++ r)) := by
  rw [pointText]
  split
  · exact n.noDigit_exponentText h
  · intro c hc
    obtain rfl : '.' = c := Option.some.inj hc
    rfl

theorem Numeral.exponentText_ne_point (h : Follows r) (rest : List Char) :
    n.exponentText ++ r ≠ '.' :: rest := by
  rw [exponentText]
  cases n.exponent with
  | none => exact h.head_ne (by decide) rest
  | some e =>
    intro heq
    have hmark : e.mark = '.' := (List.cons.inj heq).1
    rcases e.mark_eq with h | h <;> rw [h] at hmark <;> cases hmark

theorem fraction_pointText (h : Follows r) :
    fraction (n.pointText ++ (n.exponentText ++ r)) = n.places := by
  rw [Numeral.pointText]
  split
  · next hplaces =>
    rw [hplaces, List.nil_append, fraction]
    exact n.exponentText_ne_point h
  · rw [List.cons_append]
    exact takeWhile_isDigit n.isDigit_of_mem_places (n.noDigit_exponentText h)

theorem drop_pointText :
    (n.pointText ++ (n.exponentText ++ r)).drop
      (if n.places.isEmpty then 0 else n.places.length + 1) = n.exponentText ++ r := by
  rw [Numeral.pointText]
  cases hplaces : n.places with
  | nil => rfl
  | cons d ds =>
    rw [if_neg (List.cons_ne_nil d ds), List.cons_append, List.isEmpty_cons,
      if_neg Bool.false_ne_true, List.drop_succ_cons, List.drop_left]

theorem signOf_numeral :
    signOf (n.text ++ r) = (n.negative, n.whole ++ (n.pointText ++ (n.exponentText ++ r))) := by
  rw [Numeral.text, List.append_assoc, List.append_assoc, List.append_assoc]
  cases n.negative with
  | true => rfl
  | false =>
    obtain ⟨d, ds, hwhole⟩ := List.exists_cons_of_ne_nil n.whole_ne
    have hd : d ≠ '-' := by
      rintro rfl
      exact absurd (n.isDigit_of_mem_whole '-' (hwhole ▸ List.mem_cons_self)) (by decide)
    rw [hwhole, if_neg Bool.false_ne_true, List.nil_append, List.cons_append, signOf]
    exact fun more heq ↦ hd (List.cons.inj heq).1

theorem wholeDigits_numeral (h : NoDigit r) : wholeDigits (n.whole ++ r) = n.whole := by
  rcases n.whole_eq with hzero | ⟨hne, hhead⟩
  · rw [hzero]
    rfl
  · rw [wholeDigits]
    · exact takeWhile_isDigit n.isDigit_of_mem_whole h
    · intro tail heq
      obtain ⟨d, ds, hwhole⟩ := List.exists_cons_of_ne_nil hne
      rw [hwhole] at heq hhead
      exact hhead (congrArg some (List.cons.inj heq).1)

theorem Numeral.length_text :
    n.text.length = (if n.negative then 1 else 0) + n.whole.length
      + (if n.places.isEmpty then 0 else n.places.length + 1) + n.exponentText.length := by
  have hsign : (if n.negative then ['-'] else []).length = if n.negative then 1 else 0 := by
    split <;> rfl
  have hpoint : n.pointText.length = if n.places.isEmpty then 0 else n.places.length + 1 := by
    rw [pointText]
    cases n.places <;> rfl
  rw [text, List.length_append, List.length_append, List.length_append, hsign, hpoint]
  omega

theorem advance_of_length {cs : List Char} {p k : Nat} (h : k = cs.length) :
    Cursor.advance ⟨p, cs ++ r⟩ k = ⟨p + k, r⟩ := by
  rw [Cursor.advance, h, List.drop_left]

/-- The reader reads the value of a numeral. -/
theorem readNumber?_numeral (h : Follows r) (p : Nat) :
    ∃ q, readNumber? ⟨p, n.text ++ r⟩ = some (n.value, ⟨q, r⟩) := by
  have hwhole : ¬ n.whole.isEmpty = true := by simpa using n.whole_ne
  have hlength := n.length_text
  rw [readNumber?]
  simp only [signOf_numeral, wholeDigits_numeral n (n.noDigit_pointText h), List.drop_left,
    fraction_pointText n h, drop_pointText n, if_neg hwhole]
  cases hexponent : n.exponent with
  | none =>
    rw [Numeral.exponentText, hexponent, Option.elim_none, List.length_nil] at hlength
    rw [Numeral.exponentText, hexponent, Option.elim_none, List.nil_append, exponentPart?_follows h,
      Numeral.value, hexponent]
    cases hplaces : n.places with
    | nil =>
      rw [hplaces] at hlength
      exact ⟨_, congrArg (fun c ↦ some (_, c)) (advance_of_length hlength.symm)⟩
    | cons d ds =>
      rw [hplaces] at hlength
      exact ⟨_, congrArg (fun c ↦ some (_, c)) (advance_of_length hlength.symm)⟩
  | some e =>
    rw [Numeral.exponentText, hexponent, Option.elim_some] at hlength
    rw [Numeral.exponentText, hexponent, Option.elim_some, exponentPart?_exponent e h.noDigit,
      Numeral.value, hexponent]
    exact ⟨_, congrArg (fun c ↦ some (_, c)) (advance_of_length hlength.symm)⟩

end

/-! ### What is read -/

theorem append_signOf (s : List Char) :
    s = (if (signOf s).1 then ['-'] else []) ++ (signOf s).2 := by
  rw [signOf.eq_def]
  split <;> rfl

theorem takeWhile_isDigit_append (s : List Char) :
    s = s.takeWhile Char.isDigit ++ s.drop (s.takeWhile Char.isDigit).length :=
  (List.prefix_iff_eq_append.mp (List.takeWhile_prefix Char.isDigit)).symm

theorem isDigit_of_mem_takeWhile {s : List Char} {c : Char} (h : c ∈ s.takeWhile Char.isDigit) :
    c.isDigit = true :=
  List.all_eq_true.mp List.all_takeWhile c h

/-- What a number that is read has before its point. -/
theorem wholeDigits_spec {s : List Char} (hne : wholeDigits s ≠ []) :
    s = wholeDigits s ++ s.drop (wholeDigits s).length ∧
      (wholeDigits s = ['0'] ∨ wholeDigits s ≠ [] ∧ (wholeDigits s).head? ≠ some '0') ∧
      ∀ c ∈ wholeDigits s, c.isDigit = true := by
  cases s with
  | nil => exact absurd rfl hne
  | cons d s =>
    by_cases hd : d = '0'
    · subst hd
      exact ⟨rfl, Or.inl rfl, fun c hc ↦ List.mem_singleton.mp hc ▸ rfl⟩
    · have hdigits : wholeDigits (d :: s) = (d :: s).takeWhile Char.isDigit := by
        rw [wholeDigits]
        exact fun tail heq ↦ hd (List.cons.inj heq).1
      rw [hdigits] at hne ⊢
      refine ⟨takeWhile_isDigit_append _, Or.inr ⟨hne, ?_⟩, fun _ ↦ isDigit_of_mem_takeWhile⟩
      rw [List.takeWhile_cons] at hne ⊢
      split
      · exact fun heq ↦ hd (Option.some.inj heq)
      · exact nofun

/-- What a number that is read has behind its point, if it has one. -/
theorem fraction_spec (s : List Char) :
    s = (if fraction s = [] then [] else '.' :: fraction s) ++
        s.drop (if (fraction s).isEmpty then 0 else (fraction s).length + 1) ∧
      ∀ c ∈ fraction s, c.isDigit = true := by
  have hdigits : ∀ c ∈ fraction s, c.isDigit = true := by
    rw [fraction.eq_def]
    split
    · exact fun _ ↦ isDigit_of_mem_takeWhile
    · exact nofun
  refine ⟨?_, hdigits⟩
  cases hfraction : fraction s with
  | nil => rfl
  | cons d ds =>
    rw [fraction.eq_def] at hfraction
    split at hfraction
    · next rest =>
      have happend := takeWhile_isDigit_append rest
      rw [hfraction] at happend
      exact congrArg ('.' :: ·) happend
    · cases hfraction

theorem exponentSign_spec (s : List Char) :
    s = (exponentSign s).1 ++ (exponentSign s).2 ∧
      ((exponentSign s).1 = [] ∨ (exponentSign s).1 = ['+'] ∨ (exponentSign s).1 = ['-']) := by
  rw [exponentSign.eq_def]
  split
  · exact ⟨rfl, Or.inr (Or.inr rfl)⟩
  · exact ⟨rfl, Or.inr (Or.inl rfl)⟩
  · exact ⟨rfl, Or.inl rfl⟩

theorem append_drop_of_length {s cs r : List Char} {k : Nat} (h : s = cs ++ r) (hk : k = cs.length) :
    s = cs ++ s.drop k := by
  rw [h, hk, List.drop_left]

theorem exists_exponent {s : List Char} {k : Nat} {x : Int} (h : exponentPart? s = some (k, x)) :
    ∃ e : Exponent, s = e.text ++ s.drop k ∧ k = e.text.length ∧ e.value = x := by
  cases s with
  | nil => cases h
  | cons m rest =>
    rw [exponentPart?] at h
    split at h
    · next hmark =>
      obtain ⟨happend, hsign⟩ := exponentSign_spec rest
      generalize exponentSign rest = signed at h happend hsign
      obtain ⟨sign, more⟩ := signed
      dsimp only at h happend hsign
      split at h
      · cases h
      · next hne =>
        cases h
        refine ⟨⟨m, sign, more.takeWhile Char.isDigit, by simpa using hmark, hsign,
          by simpa using hne, fun _ ↦ isDigit_of_mem_takeWhile⟩, ?_, ?_, rfl⟩
        · have htext : m :: rest = m :: (sign ++ more.takeWhile Char.isDigit)
              ++ more.drop (more.takeWhile Char.isDigit).length := by
            rw [List.cons_append, List.append_assoc, ← takeWhile_isDigit_append more, ← happend]
          refine append_drop_of_length htext ?_
          simp only [Exponent.text, List.length_cons, List.length_append]
          omega
        · simp only [Exponent.text, List.length_cons, List.length_append]
          omega
    · cases h

/-- A number that is read is written by a numeral. -/
theorem exists_numeral {c c' : Cursor} {v : Json} (h : readNumber? c = some (v, c')) :
    ∃ n : Numeral, c.rest = n.text ++ c'.rest ∧ n.value = v := by
  rw [readNumber?] at h
  have hsign := append_signOf c.rest
  generalize signOf c.rest = signed at h hsign
  obtain ⟨negative, body⟩ := signed
  dsimp only at h hsign
  split at h
  · cases h
  · next hne =>
    obtain ⟨hbody, hwhole, hwholeDigits⟩ := wholeDigits_spec (by simpa using hne)
    generalize wholeDigits body = whole at h hbody hwhole hwholeDigits
    obtain ⟨htail, hplaces⟩ := fraction_spec (body.drop whole.length)
    generalize body.drop whole.length = tail at h hbody htail hplaces
    generalize fraction tail = places at h htail hplaces
    let n (e : Option Exponent) : Numeral :=
      ⟨negative, whole, places, e, hwhole, hwholeDigits, hplaces⟩
    have htext : ∀ e r, tail.drop (if places.isEmpty then 0 else places.length + 1)
        = (n e).exponentText ++ r → c.rest = (n e).text ++ r := by
      intro e r he
      rw [he] at htail
      rw [hsign, hbody, htail]
      simp only [Numeral.text, Numeral.pointText, List.append_assoc, n]
    split at h
    · next k x hexponent =>
      obtain ⟨e, he, rfl, rfl⟩ := exists_exponent hexponent
      cases h
      exact ⟨n (some e), append_drop_of_length (htext _ _ he) (n (some e)).length_text.symm, rfl⟩
    · have hlength := (n none).length_text
      split at h
      · next hempty =>
        cases h
        rw [if_pos hempty] at hlength
        refine ⟨n none, append_drop_of_length (htext none _ rfl) hlength.symm, ?_⟩
        exact if_pos (List.isEmpty_iff.mp hempty)
      · next hempty =>
        cases h
        rw [if_neg hempty] at hlength
        refine ⟨n none, append_drop_of_length (htext none _ rfl) hlength.symm, ?_⟩
        exact if_neg fun hplaces ↦ hempty (List.isEmpty_iff.mpr hplaces)

/-! ## Names -/

/-- The reader reads a name, whatever follows. -/
theorem readName?_name {name : String} {v : Json} (h : (name, v) ∈ names) (p : Nat)
    (r : List Char) : ∃ q, readName? ⟨p, name.toList ++ r⟩ = some (v, ⟨q, r⟩) := by
  simp only [names, List.mem_cons, Prod.mk.injEq, List.not_mem_nil, or_false] at h
  rcases h with ⟨rfl, rfl⟩ | ⟨rfl, rfl⟩ | ⟨rfl, rfl⟩ | ⟨rfl, rfl⟩ | ⟨rfl, rfl⟩ | ⟨rfl, rfl⟩ <;>
    exact ⟨_, rfl⟩

theorem exists_name {c c' : Cursor} {v : Json} (h : readName? c = some (v, c')) :
    ∃ name, (name, v) ∈ names ∧ c.rest = name.toList ++ c'.rest := by
  obtain ⟨⟨name, value⟩, hmem, hentry⟩ := List.exists_of_findSome?_eq_some h
  dsimp only at hentry
  split at hentry
  · next hprefix =>
    cases hentry
    exact ⟨name, hmem, (List.prefix_iff_eq_append.mp (List.isPrefixOf_iff_prefix.mp hprefix)).symm⟩
  · cases hentry

/-- A name starts with a letter, or with a minus and a letter. -/
theorem not_isPrefixOf_digit {name : String} {v : Json} (h : (name, v) ∈ names) {d : Char}
    (hd : d.isDigit = true) (r : List Char) :
    name.toList.isPrefixOf (d :: r) = false ∧ name.toList.isPrefixOf ('-' :: d :: r) = false := by
  have hne : ∀ c : Char, c.isDigit = false → (c == d) = false := by
    intro c hc
    rw [beq_eq_false_iff_ne]
    rintro rfl
    rw [hc] at hd
    cases hd
  simp only [names, List.mem_cons, Prod.mk.injEq, List.not_mem_nil, or_false] at h
  rcases h with ⟨rfl, -⟩ | ⟨rfl, -⟩ | ⟨rfl, -⟩ | ⟨rfl, -⟩ | ⟨rfl, -⟩ | ⟨rfl, -⟩ <;>
    simp [List.isPrefixOf, hne]

/-- A numeral is no name. -/
theorem readName?_numeral (n : Numeral) (p : Nat) (r : List Char) :
    readName? ⟨p, n.text ++ r⟩ = none := by
  obtain ⟨d, ds, hwhole⟩ := List.exists_cons_of_ne_nil n.whole_ne
  have hd : d.isDigit = true := n.isDigit_of_mem_whole d (hwhole ▸ List.mem_cons_self)
  refine List.findSome?_eq_none_iff.mpr fun entry hentry ↦ if_neg ?_
  rw [Bool.not_eq_true, Numeral.text, hwhole]
  cases n.negative with
  | true => exact (not_isPrefixOf_digit hentry hd _).2
  | false => exact (not_isPrefixOf_digit hentry hd _).1

end FeatureAtlas.Json
