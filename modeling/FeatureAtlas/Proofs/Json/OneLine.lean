import FeatureAtlas.Json.Printer
import FeatureAtlas.Proofs.Json.Numeral
import FeatureAtlas.Proofs.Json.Printing

/-!
# Compact text is one line

Whatever text is in a value, its keys included, gets into the compact text through the characters of a string
literal, and these are escaped one by one. What stands between the literals is punctuation, names and numbers.
So no control character of ASCII is in the text, and above all no line break.
-/

namespace FeatureAtlas.Json

/-- No control character of ASCII is in the text. -/
def OneLine (cs : List Char) : Prop := ∀ c ∈ cs, 32 ≤ c.toNat

-- named, because there is also an instance that goes through every character there is
instance (cs : List Char) : Decidable (OneLine cs) := List.decidableBAll (fun c : Char ↦ 32 ≤ c.toNat) cs

section

variable {c : Char} {cs ds : List Char}

@[simp] theorem oneLine_nil : OneLine [] := nofun

@[simp] theorem oneLine_cons : OneLine (c :: cs) ↔ 32 ≤ c.toNat ∧ OneLine cs := List.forall_mem_cons

@[simp] theorem oneLine_append : OneLine (cs ++ ds) ↔ OneLine cs ∧ OneLine ds := List.forall_mem_append

theorem OneLine.mono (h : OneLine cs) (hsubset : ds ⊆ cs) : OneLine ds := fun c hc ↦ h c (hsubset hc)

theorem OneLine.not_mem (h : OneLine cs) (hc : c.toNat < 32) : c ∉ cs := fun hmem ↦
  absurd (h c hmem) (Nat.not_le.mpr hc)

end

/-! ## Literals -/

theorem oneLine_escapeChar (c : Char) : OneLine (escapeChar c) := by
  have hhex : ∀ n < 32, OneLine (Text.hexPadded 4 n) := by decide
  rw [escapeChar]
  iterate 7
    split
    · simp [Char.toNat]
  split
  · next hcontrol => simpa using hhex c.toNat hcontrol
  · next hcontrol => simpa using hcontrol

theorem oneLine_literal (s : String) : OneLine (literal s) := by
  have hchars : OneLine (s.toList.flatMap escapeChar) := by
    intro c hc
    obtain ⟨d, -, hcd⟩ := List.mem_flatMap.mp hc
    exact oneLine_escapeChar d c hcd
  simpa [literal] using hchars

/-! ## Numbers -/

theorem oneLine_of_isDigit {cs : List Char} (h : ∀ c ∈ cs, c.isDigit = true) : OneLine cs := by
  intro c hc
  have hzero : '0'.toNat ≤ c.toNat := (Char.isDigit_iff_toNat.mp (h c hc)).1
  exact Nat.le_trans (by decide) hzero

theorem oneLine_toDigits (n : Nat) : OneLine (Nat.toDigits 10 n) :=
  oneLine_of_isDigit (isDigit_of_mem_toDigits n)

theorem oneLine_zeros (k : Nat) : OneLine (List.replicate k '0') := oneLine_of_isDigit isDigit_of_mem_zeros

theorem oneLine_intText (n : Int) : OneLine (intText n) := by
  rw [intText]
  split
  · simpa using oneLine_toDigits n.natAbs
  · exact oneLine_toDigits n.natAbs

theorem oneLine_placePoint {ds : List Char} (h : OneLine ds) (whole : Int) :
    OneLine (Binary64.placePoint ds whole) := by
  rw [Binary64.placePoint]
  split
  · simp [h, oneLine_zeros]
  · split
    · simp [h, oneLine_zeros]
    · have htake : OneLine (ds.take whole.toNat) := h.mono (List.take_subset _ _)
      have hdrop : OneLine (ds.drop whole.toNat) := h.mono (List.drop_subset _ _)
      simp [htake, hdrop]

theorem oneLine_exponentText (e : Int) : OneLine (Binary64.exponentText e) := by
  have hdigits := oneLine_toDigits e.natAbs
  rw [Binary64.exponentText]
  split <;> split <;> simpa using hdigits

theorem oneLine_finiteText (negative : Bool) (m : Nat) (e : Int) :
    OneLine (Binary64.finiteText negative m e) := by
  rw [Binary64.finiteText]
  have hmark : OneLine (if negative then ['-'] else []) := by
    cases negative <;> simp
  generalize Binary64.shortest m e = d
  have hdigits := oneLine_toDigits d.digits
  split
  · simp [hmark]
  · dsimp only
    split
    · simp [hmark, oneLine_placePoint hdigits]
    · have hfirst : OneLine ((Nat.toDigits 10 d.digits).take 1) := hdigits.mono (List.take_subset _ _)
      have hfraction : OneLine ((Nat.toDigits 10 d.digits).drop 1) := hdigits.mono (List.drop_subset _ _)
      have hpoint : OneLine (if ((Nat.toDigits 10 d.digits).drop 1).isEmpty then []
          else '.' :: (Nat.toDigits 10 d.digits).drop 1) := by
        split
        · exact oneLine_nil
        · simpa using hfraction
      simp only [oneLine_append, oneLine_cons, hmark, hfirst, hpoint, oneLine_exponentText, and_true,
        true_and]
      decide

theorem oneLine_floatText : ∀ x : Binary64, OneLine (floatText x)
  | .finite negative m e => oneLine_finiteText negative m e
  | .infinite false | .infinite true | .notANumber => by decide

/-! ## Values -/

mutual

/-- The compact text of a value is one line. -/
theorem oneLine_compactChars : ∀ v : Json, OneLine (compactChars v)
  | .null | .bool true | .bool false => by decide
  | .int n => oneLine_intText n
  | .float x => oneLine_floatText x
  | .str s => oneLine_literal s
  | .arr xs => by
    have hitems := oneLine_compactItems xs
    rw [compactChars]
    simpa using hitems
  | .obj fields => by
    have hfields := oneLine_compactFields fields
    rw [compactChars]
    simpa using hfields

theorem oneLine_compactItems : ∀ xs : List Json, OneLine (compactItems xs)
  | [] => oneLine_nil
  | [x] => oneLine_compactChars x
  | x :: y :: rest => by
    have hfirst := oneLine_compactChars x
    have hrest := oneLine_compactItems (y :: rest)
    rw [compactItems]
    simp [hfirst, hrest]

theorem oneLine_compactFields : ∀ fields : List (String × Json), OneLine (compactFields fields)
  | [] => oneLine_nil
  | [(k, v)] => by
    have hvalue := oneLine_compactChars v
    rw [compactFields]
    simp [oneLine_literal, hvalue]
  | (k, v) :: f :: rest => by
    have hvalue := oneLine_compactChars v
    have hrest := oneLine_compactFields (f :: rest)
    rw [compactFields]
    simp [oneLine_literal, hvalue, hrest]

end

end FeatureAtlas.Json
