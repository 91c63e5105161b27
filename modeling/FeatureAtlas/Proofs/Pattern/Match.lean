import FeatureAtlas.Pattern.Match
import Mathlib.Data.List.Basic

/-!
# What a search finds

A matcher hands on only places of the text that it was given: along the pattern, each kind of node either
moves over the text, or looks elsewhere and comes back to where it was (`stays_matcher`). So whatever a pattern
has in front of some characters, a match of the whole shows an occurrence of these characters.

Patterns of characters that stand for themselves are followed exactly: a search for them is a search for a
part of the text, and a look-ahead behind them is a condition on what the text goes on with.
-/

namespace FeatureAtlas.Pattern

/-! ## Places of one text -/

/-- The text that a place is in. -/
def Place.text (s : Place) : List Char := s.before.reverse ++ s.after

/-- The place behind some characters, in front of the rest. -/
def Place.past (s : Place) (cs rest : List Char) : Place :=
  { s with before := cs.reverse ++ s.before, after := rest }

theorem Place.text_past {s : Place} {cs rest : List Char} (h : s.after = cs ++ rest) :
    (s.past cs rest).text = s.text := by
  simp [text, past, h]

/-- What follows is tried only at places of the text. -/
def Matcher.Stays (m : Matcher) : Prop :=
  ∀ s k t, m s k = some t → ∃ u : Place, u.text = s.text ∧ k u = some t

section Stays

variable {m : Matcher}

theorem Matcher.Stays.first (h : m.Stays) {s t : Place} (ht : m.first s = some t) : t.text = s.text := by
  obtain ⟨u, hu, heq⟩ := h s some t ht
  rwa [← Option.some.inj heq]

theorem Matcher.Stays.rounds (h : m.Stays) (n : Nat) : (Matcher.rounds m n).Stays := by
  induction n with
  | zero => exact fun s k t ht ↦ ⟨s, rfl, ht⟩
  | succ n ih =>
    intro s k t ht
    obtain ⟨u, hu, hrest⟩ := h s _ t ht
    obtain ⟨v, hv, hk⟩ := ih u k t hrest
    exact ⟨v, hv.trans hu, hk⟩

theorem Matcher.Stays.greedy (h : m.Stays) (fuel : Nat) :
    ∀ bound last, (Matcher.greedy m fuel bound last).Stays := by
  induction fuel with
  | zero => exact fun _ _ s k t ht ↦ ⟨s, rfl, ht⟩
  | succ fuel ih =>
    intro bound last s k t ht
    rw [Matcher.greedy] at ht
    split at ht
    · rcases Option.or_eq_some_iff.mp ht with ht | ⟨-, ht⟩
      · obtain ⟨u, hu, hrest⟩ := h s _ t ht
        obtain ⟨v, hv, hk⟩ := ih _ _ u k t hrest
        exact ⟨v, hv.trans hu, hk⟩
      · exact ⟨s, rfl, ht⟩
    · exact ⟨s, rfl, ht⟩

theorem Matcher.Stays.lazy (h : m.Stays) (fuel : Nat) :
    ∀ bound last, (Matcher.lazy m fuel bound last).Stays := by
  induction fuel with
  | zero => exact fun _ _ s k t ht ↦ ⟨s, rfl, ht⟩
  | succ fuel ih =>
    intro bound last s k t ht
    rw [Matcher.lazy] at ht
    rcases Option.or_eq_some_iff.mp ht with ht | ⟨-, ht⟩
    · exact ⟨s, rfl, ht⟩
    · split at ht
      · obtain ⟨u, hu, hrest⟩ := h s _ t ht
        obtain ⟨v, hv, hk⟩ := ih _ _ u k t hrest
        exact ⟨v, hv.trans hu, hk⟩
      · cases ht

theorem Matcher.Stays.text_possessive (h : m.Stays) (fuel : Nat) : ∀ bound last s,
    (Matcher.possessive m fuel bound last s).text = s.text := by
  induction fuel with
  | zero => exact fun _ _ _ ↦ rfl
  | succ fuel ih =>
    intro bound last s
    rw [Matcher.possessive]
    split
    · split
      · next t ht => exact (ih _ _ t).trans (h.first ht)
      · rfl
    · rfl

theorem Matcher.Stays.text_settled (h : m.Stays) (n : Nat) : ∀ {s t},
    Matcher.settled m n s = some t → t.text = s.text := by
  induction n with
  | zero =>
    intro s t ht
    rw [← Option.some.inj ht]
  | succ n ih =>
    intro s t ht
    obtain ⟨u, hu, hrest⟩ := Option.bind_eq_some_iff.mp ht
    exact (ih hrest).trans (h.first hu)

theorem Matcher.Stays.repeated (h : m.Stays) (mode : RepeatMode) (least : Nat) (most : Option Nat) :
    (Matcher.repeated m mode least most).Stays := by
  intro s k t ht
  cases mode with
  | greedy =>
    obtain ⟨u, hu, hrest⟩ := h.rounds least s _ t ht
    obtain ⟨v, hv, hk⟩ := h.greedy _ _ _ u k t hrest
    exact ⟨v, hv.trans hu, hk⟩
  | lazy =>
    obtain ⟨u, hu, hrest⟩ := h.rounds least s _ t ht
    obtain ⟨v, hv, hk⟩ := h.lazy _ _ _ u k t hrest
    exact ⟨v, hv.trans hu, hk⟩
  | possessive =>
    obtain ⟨u, hu, hk⟩ := Option.bind_eq_some_iff.mp ht
    exact ⟨_, (h.text_possessive _ _ _ u).trans (h.text_settled least hu), hk⟩

end Stays

theorem stays_matchOne (test : Char → Bool) : (matchOne test).Stays := by
  intro s k t ht
  rw [matchOne] at ht
  split at ht
  · cases ht
  · next c cs hafter =>
    split at ht
    · have htext : (s.past [c] cs).text = s.text := Place.text_past hafter
      exact ⟨_, htext, ht⟩
    · cases ht

theorem stays_matchAll (same : Char → Char → Bool) (cs : List Char) : (matchAll same cs).Stays := by
  induction cs with
  | nil => exact fun s k t ht ↦ ⟨s, rfl, ht⟩
  | cons c cs ih =>
    intro s k t ht
    obtain ⟨u, hu, hrest⟩ := stays_matchOne _ s _ t ht
    obtain ⟨v, hv, hk⟩ := ih u k t hrest
    exact ⟨v, hv.trans hu, hk⟩

/-- What an assertion looks at does not move the place. -/
theorem stays_assertion (negated : Bool) (found : Option Place) : (assertion negated found).Stays := by
  intro s k t ht
  rw [assertion.eq_def] at ht
  split at ht
  · next u =>
    split at ht
    · cases ht
    · exact ⟨s.withGroups u, rfl, ht⟩
  · split at ht
    · exact ⟨s, rfl, ht⟩
    · cases ht

/-- **The matcher of a pattern hands on only places of the text.** -/
theorem stays_matcher (p : Pattern) : (matcher p).Stays := by
  induction p with
  | empty => exact fun s k t ht ↦ ⟨s, rfl, ht⟩
  | one options test => exact stays_matchOne _
  | anchor options a =>
    intro s k t ht
    dsimp only [matcher] at ht
    split at ht
    · exact ⟨s, rfl, ht⟩
    · cases ht
  | seq p q hp hq =>
    intro s k t ht
    obtain ⟨u, hu, hrest⟩ := hp s _ t ht
    obtain ⟨v, hv, hk⟩ := hq u k t hrest
    exact ⟨v, hv.trans hu, hk⟩
  | alt p q hp hq =>
    intro s k t ht
    rcases Option.or_eq_some_iff.mp ht with ht | ⟨-, ht⟩
    · exact hp s k t ht
    · exact hq s k t ht
  | group index p hp =>
    intro s k t ht
    obtain ⟨u, hu, hk⟩ := hp (s.openGroup index) _ t ht
    exact ⟨u.closeGroup index, hu, hk⟩
  | atomic p hp =>
    intro s k t ht
    obtain ⟨u, hu, hk⟩ := Option.bind_eq_some_iff.mp ht
    exact ⟨u, hp.first hu, hk⟩
  | repeated options mode least most p hp => exact hp.repeated mode least most
  | ahead negated p _ => exact fun s ↦ stays_assertion negated _ s
  | behind negated width p _ => exact fun s ↦ stays_assertion negated _ s
  | reference options index =>
    intro s k t ht
    dsimp only [matcher] at ht
    split at ht
    · cases ht
    · exact stays_matchAll _ _ s k t ht
  | conditional index p q hp hq =>
    intro s k t ht
    dsimp only [matcher] at ht
    split at ht
    · exact hp s k t ht
    · exact hq s k t ht

/-! ## Characters that stand for themselves -/

/-- A character that stands for itself. -/
def char (c : Char) : Pattern := .one {} (.code c.toNat false)

/-- Characters that stand for themselves. -/
def literal : List Char → Pattern
  | [] => .empty
  | [c] => char c
  | c :: d :: cs => .seq (char c) (literal (d :: cs))

/-- Characters that stand for themselves, with another pattern behind them. -/
def spelled (cs : List Char) (p : Pattern) : Pattern := cs.foldr (fun c q ↦ .seq (char c) q) p

section Literal

variable {s t : Place} {k : Place → Option Place}

theorem matcher_char (c : Char) : matcher (char c) s k = some t ↔
    ∃ rest, s.after = c :: rest ∧ k (s.past [c] rest) = some t := by
  have htest : ∀ d, testMatches {} d (.code c.toNat false) = true ↔ d = c := by
    intro d
    rw [← Char.toNat_inj]
    simp only [testMatches, codeMatches, Bool.false_eq_true, if_false, bne_iff_ne, ne_eq,
      Bool.not_eq_false, beq_iff_eq]
    exact eq_comm
  rw [char, matcher, matchOne]
  constructor
  · intro h
    split at h
    · cases h
    · next d rest hafter =>
      obtain ⟨hd, hk⟩ := Option.ite_none_right_eq_some.mp h
      obtain rfl := (htest d).mp hd
      exact ⟨rest, hafter, hk⟩
  · rintro ⟨rest, hafter, hk⟩
    rw [hafter]
    dsimp only
    rw [if_pos ((htest c).mpr rfl)]
    exact hk

theorem matcher_spelled {p : Pattern} (cs : List Char) : matcher (spelled cs p) s k = some t ↔
    ∃ rest, s.after = cs ++ rest ∧ matcher p (s.past cs rest) k = some t := by
  induction cs generalizing s with
  | nil =>
    constructor
    · exact fun h ↦ ⟨s.after, rfl, h⟩
    · rintro ⟨rest, rfl, h⟩
      exact h
  | cons c cs ih =>
    have hpast : ∀ r rest, (s.past [c] r).past cs rest = s.past (c :: cs) rest := fun r rest ↦ by
      simp [Place.past]
    change matcher (char c) s (fun u ↦ matcher (spelled cs p) u k) = some t ↔ _
    rw [matcher_char]
    constructor
    · rintro ⟨r, hafter, h⟩
      obtain ⟨rest, hrest, h⟩ := ih.mp h
      obtain rfl : r = cs ++ rest := hrest
      exact ⟨rest, hafter, hpast _ rest ▸ h⟩
    · rintro ⟨rest, hafter, h⟩
      exact ⟨cs ++ rest, hafter, ih.mpr ⟨rest, rfl, (hpast _ rest).symm ▸ h⟩⟩

theorem matcher_literal (cs : List Char) : matcher (literal cs) s k = some t ↔
    ∃ rest, s.after = cs ++ rest ∧ k (s.past cs rest) = some t := by
  -- the last character has nothing behind it, so it is no `spelled` one
  have hspelled : matcher (literal cs) s k = matcher (spelled cs .empty) s k := by
    induction cs using literal.induct generalizing s with
    | case1 => rfl
    | case2 c => rfl
    | case3 c d cs ih =>
      change matcher (char c) s (fun u ↦ matcher (literal (d :: cs)) u k) = _
      simp only [ih]
      rfl
  rw [hspelled, matcher_spelled]
  rfl

theorem first_literal_isSome (cs : List Char) :
    ((matcher (literal cs)).first s).isSome = true ↔ cs <+: s.after := by
  rw [Option.isSome_iff_exists]
  constructor
  · rintro ⟨t, ht⟩
    obtain ⟨rest, hafter, -⟩ := (matcher_literal cs).mp ht
    exact ⟨rest, hafter.symm⟩
  · rintro ⟨rest, hafter⟩
    exact ⟨s.past cs rest, (matcher_literal cs).mpr ⟨rest, hafter.symm, rfl⟩⟩

end Literal

/-! ## Searching -/

section Search

variable {text : String}

theorem searchFrom_iff (p : Pattern) (cs : List Char) : ∀ before, searchFrom p before cs = true ↔
    ∃ front rest, cs = front ++ rest ∧
      ((matcher p).first { before := front.reverse ++ before, after := rest }).isSome = true := by
  induction cs with
  | nil =>
    intro before
    rw [searchFrom]
    constructor
    · exact fun h ↦ ⟨[], [], rfl, h⟩
    · rintro ⟨front, rest, heq, h⟩
      obtain ⟨rfl, rfl⟩ := List.append_eq_nil_iff.mp heq.symm
      exact h
  | cons c cs ih =>
    intro before
    rw [searchFrom, Bool.or_eq_true, ih]
    constructor
    · rintro (h | ⟨front, rest, rfl, h⟩)
      · exact ⟨[], c :: cs, rfl, h⟩
      · exact ⟨c :: front, rest, rfl, by simpa using h⟩
    · rintro ⟨front, rest, heq, h⟩
      cases front with
      | nil =>
        obtain rfl : c :: cs = rest := heq
        exact Or.inl h
      | cons d front =>
        obtain ⟨rfl, rfl⟩ := List.cons.inj heq
        exact Or.inr ⟨front, rest, rfl, by simpa using h⟩

theorem occursIn_iff (p : Pattern) : p.occursIn text = true ↔ ∃ front rest, text.toList = front ++ rest ∧
    ((matcher p).first { before := front.reverse, after := rest }).isSome = true := by
  rw [occursIn, searchFrom_iff]
  simp only [List.append_nil]

/-- **A search for characters finds them where they are a part of the text.** -/
theorem occursIn_literal (cs : List Char) : (literal cs).occursIn text = true ↔ cs <:+: text.toList := by
  simp only [occursIn_iff, first_literal_isSome]
  constructor
  · rintro ⟨front, rest, htext, r, rfl⟩
    exact ⟨front, r, by rw [htext, List.append_assoc]⟩
  · rintro ⟨front, r, htext⟩
    exact ⟨front, cs ++ r, by rw [← htext, List.append_assoc], r, rfl⟩

/-- **A look-ahead behind characters is a condition on what follows them.** -/
theorem occursIn_spelled_ahead (cs ws : List Char) :
    (spelled cs (.ahead true (literal ws))).occursIn text = true ↔
      ∃ front rest, text.toList = front ++ cs ++ rest ∧ ¬ws <+: rest := by
  have hahead : ∀ s : Place, ((matcher (.ahead true (literal ws))).first s).isSome = true ↔
      ¬ws <+: s.after := by
    intro s
    rw [← first_literal_isSome]
    change (assertion true ((matcher (literal ws)).first s) s some).isSome = true ↔ _
    cases (matcher (literal ws)).first s <;> simp [assertion]
  rw [occursIn_iff]
  constructor
  · rintro ⟨front, r, htext, h⟩
    obtain ⟨t, ht⟩ := Option.isSome_iff_exists.mp h
    obtain ⟨rest, rfl, hrest⟩ := (matcher_spelled cs).mp ht
    refine ⟨front, rest, by rw [htext, List.append_assoc], ?_⟩
    exact (hahead _).mp (Option.isSome_iff_exists.mpr ⟨t, hrest⟩)
  · rintro ⟨front, rest, htext, hnot⟩
    obtain ⟨t, ht⟩ := Option.isSome_iff_exists.mp
      ((hahead (Place.past ⟨front.reverse, cs ++ rest, [], []⟩ cs rest)).mpr hnot)
    refine ⟨front, cs ++ rest, by rw [htext, List.append_assoc], ?_⟩
    exact Option.isSome_iff_exists.mpr ⟨t, (matcher_spelled cs).mpr ⟨rest, rfl, ht⟩⟩

/-- Characters at the end of a pattern occur where the pattern does, whatever it has in front of them. -/
theorem infix_of_occursIn_spelled_seq {cs ws : List Char} {p : Pattern}
    (h : (spelled cs (.seq p (literal ws))).occursIn text = true) : ws <:+: text.toList := by
  obtain ⟨front, r, htext, hfound⟩ := (occursIn_iff _).mp h
  obtain ⟨t, ht⟩ := Option.isSome_iff_exists.mp hfound
  obtain ⟨rest, hrest, hseq⟩ := (matcher_spelled cs).mp ht
  obtain ⟨u, hu, hend⟩ := stays_matcher p _ _ t hseq
  obtain ⟨behind, hafter, -⟩ := (matcher_literal ws).mp hend
  have hsame : u.before.reverse ++ u.after = text.toList := by
    rw [Place.text_past hrest] at hu
    simpa [Place.text, htext] using hu
  exact ⟨u.before.reverse, behind, by rw [← hsame, hafter, List.append_assoc]⟩

end Search

end FeatureAtlas.Pattern
