import FeatureAtlas.Declaration.Name
import FeatureAtlas.Proofs.Comment.Header
import Mathlib.Data.Nat.Find
import Mathlib.Tactic.Common

/-!
# Which declaration gives the name

A form of declarations is searched for in the whole text before the next form is tried. So the name is that
of the most preferred form that stands anywhere, and it is the name of the earliest declaration unless a form
that is preferred to it stands only further on: then the earliest declaration is overtaken.

Places of different forms never coincide. The first letter of a text, and the first one behind `export`,
tell the forms apart.
-/

namespace FeatureAtlas.Declaration

/-! ## Searching -/

theorem search_eq_none_iff {α : Type} {f : List Char → Option α} {cs : List Char} :
    search f cs = none ↔ ∀ i, f (cs.drop i) = none := by
  induction cs with
  | nil => simp [search]
  | cons c cs ih =>
    rw [search]
    cases hf : f (c :: cs) with
    | some a =>
      simp only [reduceCtorEq, false_iff, not_forall]
      exact ⟨0, by simp [hf]⟩
    | none =>
      rw [ih]
      constructor
      · intro h i
        cases i with
        | zero => exact hf
        | succ i => exact h i
      · exact fun h i ↦ h (i + 1)

theorem search_eq_some_iff {α : Type} {f : List Char → Option α} {cs : List Char} {a : α} :
    search f cs = some a ↔ ∃ i, f (cs.drop i) = some a ∧ ∀ j < i, f (cs.drop j) = none := by
  induction cs with
  | nil =>
    simp only [search, List.drop_nil]
    exact ⟨fun h ↦ ⟨0, h, by simp⟩, fun ⟨_, h, _⟩ ↦ h⟩
  | cons c cs ih =>
    rw [search]
    cases hf : f (c :: cs) with
    | some b =>
      constructor
      · exact fun h ↦ ⟨0, hf.trans h, by simp⟩
      · rintro ⟨i, hi, hbefore⟩
        cases i with
        | zero => exact hf.symm.trans hi
        | succ i =>
          have hnone : f (c :: cs) = none := hbefore 0 (by omega)
          simp [hf] at hnone
    | none =>
      simp only [ih]
      constructor
      · rintro ⟨i, hi, hbefore⟩
        refine ⟨i + 1, hi, fun j hj ↦ ?_⟩
        cases j with
        | zero => exact hf
        | succ j => exact hbefore j (by omega)
      · rintro ⟨i, hi, hbefore⟩
        cases i with
        | zero => simp [hf] at hi
        | succ i => exact ⟨i, hi, fun j hj ↦ hbefore (j + 1) (by omega)⟩

/-! ## Places of declarations -/

/-- A declaration of a form stands at an offset of a text and gives a name. -/
def StandsAt (form : List Char → Option String) (code : String) (i : Nat) (name : String) : Prop :=
  form (code.toList.drop i) = some name

/-- No declaration of a form stands anywhere in a text. -/
def Absent (form : List Char → Option String) (code : String) : Prop :=
  ∀ i name, ¬StandsAt form code i name

/-- A declaration of a form stands at an offset, and none of this form further to the front. -/
structure FirstAt (form : List Char → Option String) (code : String) (i : Nat) (name : String) : Prop where
  stands : StandsAt form code i name
  first : ∀ j < i, ∀ other, ¬StandsAt form code j other

/-- A declaration of one of the forms stands at an offset, and none of any form further to the front. -/
structure Earliest (forms : List (List Char → Option String)) (code : String) (i : Nat) (name : String) :
    Prop where
  stands : ∃ form ∈ forms, StandsAt form code i name
  first : ∀ form ∈ forms, ∀ j < i, ∀ other, ¬StandsAt form code j other

/-- The first declaration of a form, where none of the forms before it in the list stands anywhere. -/
def Preferred (forms : List (List Char → Option String)) (code : String) (i : Nat) (name : String) : Prop :=
  ∃ before form after, forms = before ++ form :: after ∧ (∀ f ∈ before, Absent f code) ∧
    FirstAt form code i name

/-- The preferred declaration stands behind this one and has another name. -/
def Overtaken (forms : List (List Char → Option String)) (code : String) (i : Nat) (name : String) : Prop :=
  ∃ k other, i < k ∧ other ≠ name ∧ Preferred forms code k other

/-- How a name is found with forms in order of preference. -/
structure NamedInOrder (forms : List (List Char → Option String)) (code : String) (result : Option String) :
    Prop where
  /-- There is no name only where no declaration of any form stands. -/
  none_iff : result = none ↔ ∀ form ∈ forms, Absent form code
  /-- The name is that of the preferred declaration. -/
  some_iff : ∀ name, result = some name ↔ ∃ i, Preferred forms code i name
  /-- If there is a name, then there is an earliest declaration. -/
  exists_earliest : result ≠ none → ∃ i name, Earliest forms code i name
  /-- It is named unless it is overtaken. -/
  earliest_iff : ∀ i name, Earliest forms code i name → (result = some name ↔ ¬Overtaken forms code i name)

theorem search_eq_none_iff_absent {form : List Char → Option String} {code : String} :
    search form code.toList = none ↔ Absent form code := by
  rw [search_eq_none_iff]
  exact forall_congr' fun i ↦ Option.eq_none_iff_forall_ne_some

theorem search_eq_some_iff_firstAt {form : List Char → Option String} {code : String} {name : String} :
    search form code.toList = some name ↔ ∃ i, FirstAt form code i name := by
  rw [search_eq_some_iff]
  refine exists_congr fun i ↦ ⟨fun ⟨hi, hbefore⟩ ↦ ⟨hi, ?_⟩, fun ⟨hi, hfirst⟩ ↦ ⟨hi, ?_⟩⟩
  · intro j hj other hother
    rw [StandsAt, hbefore j hj] at hother
    cases hother
  · exact fun j hj ↦ Option.eq_none_iff_forall_ne_some.mpr (hfirst j hj)

/-! ## Forms that agree -/

/-- Forms that stand at the same place give the same name. -/
def Agree (forms : List (List Char → Option String)) : Prop :=
  ∀ f ∈ forms, ∀ g ∈ forms, ∀ cs a b, f cs = some a → g cs = some b → a = b

/-- The earliest declaration is one only. -/
theorem Earliest.unique {forms : List (List Char → Option String)} {code : String} {i k : Nat}
    {name other : String} (hagree : Agree forms) (h : Earliest forms code i name)
    (h' : Earliest forms code k other) : i = k ∧ name = other := by
  obtain ⟨f, hf, hname⟩ := h.stands
  obtain ⟨g, hg, hother⟩ := h'.stands
  have hik : i = k := by
    rcases Nat.lt_trichotomy i k with hlt | heq | hgt
    · exact absurd hname (h'.first f hf i hlt name)
    · exact heq
    · exact absurd hother (h.first g hg k hgt other)
  subst hik
  exact ⟨rfl, hagree f hf g hg _ name other hname hother⟩

/-- If declarations stand somewhere, then one of them is the earliest. -/
theorem exists_earliest_of_standsAt {forms : List (List Char → Option String)} {code : String}
    {form : List Char → Option String} (hform : form ∈ forms) {i : Nat} {name : String}
    (h : StandsAt form code i name) : ∃ k first, Earliest forms code k first := by
  classical
  have hsome : ∃ k, ∃ f ∈ forms, ∃ first, StandsAt f code k first := ⟨i, form, hform, name, h⟩
  obtain ⟨f, hf, first, hfirst⟩ := Nat.find_spec hsome
  refine ⟨Nat.find hsome, first, ⟨f, hf, hfirst⟩, fun g hg j hj other hother ↦ ?_⟩
  exact Nat.find_min hsome hj ⟨g, hg, other, hother⟩

theorem findSome?_search_eq_none_iff {forms : List (List Char → Option String)} {code : String} :
    (forms.findSome? fun form ↦ search form code.toList) = none ↔ ∀ form ∈ forms, Absent form code := by
  simp only [List.findSome?_eq_none_iff, search_eq_none_iff_absent]

theorem findSome?_search_eq_some_iff {forms : List (List Char → Option String)} {code name : String} :
    (forms.findSome? fun form ↦ search form code.toList) = some name ↔ ∃ i, Preferred forms code i name := by
  rw [List.findSome?_eq_some_iff]
  simp only [search_eq_none_iff_absent, search_eq_some_iff_firstAt]
  constructor
  · rintro ⟨before, form, after, hforms, ⟨i, hi⟩, hbefore⟩
    exact ⟨i, before, form, after, hforms, hbefore, hi⟩
  · rintro ⟨i, before, form, after, hforms, hbefore, hi⟩
    exact ⟨before, form, after, hforms, ⟨i, hi⟩, hbefore⟩

/-- The preferred declaration has the name of the earliest one, unless it overtakes it. -/
theorem Preferred.eq_of_not_overtaken {forms : List (List Char → Option String)} {code : String} {i k : Nat}
    {name found : String} (hagree : Agree forms) (h : Preferred forms code k found)
    (hearliest : Earliest forms code i name) (hnot : ¬Overtaken forms code i name) : found = name := by
  obtain ⟨before, form, after, rfl, -, hfirst⟩ := id h
  have hform : form ∈ before ++ form :: after := by simp
  have hle : i ≤ k := by
    by_contra hlt
    exact hearliest.first form hform k (by omega) found hfirst.stands
  -- the preferred declaration is further on, or at the earliest place, where the forms agree
  rcases Nat.lt_or_eq_of_le hle with hlt | rfl
  · by_contra hother
    exact hnot ⟨k, found, hlt, hother, h⟩
  · obtain ⟨f, hf, hstands⟩ := hearliest.stands
    exact hagree form hform f hf _ found name hfirst.stands hstands

/-- Trying one form after the other on the whole text. -/
theorem namedInOrder_findSome? {forms : List (List Char → Option String)} (hagree : Agree forms)
    (code : String) :
    NamedInOrder forms code (forms.findSome? fun form ↦ search form code.toList) where
  none_iff := findSome?_search_eq_none_iff
  some_iff _ := findSome?_search_eq_some_iff
  exists_earliest h := by
    obtain ⟨name, hname⟩ := Option.ne_none_iff_exists'.mp h
    obtain ⟨i, before, form, after, rfl, -, hi⟩ := findSome?_search_eq_some_iff.mp hname
    exact exists_earliest_of_standsAt (by simp) hi.stands
  earliest_iff i name hearliest := by
    constructor
    · rintro hname ⟨k, other, -, hother, hk⟩
      have hresult := findSome?_search_eq_some_iff.mpr ⟨k, hk⟩
      exact hother (Option.some.inj (hresult.symm.trans hname))
    · intro hnot
      -- a declaration stands somewhere, so there is a name
      obtain ⟨f, hf, hstands⟩ := hearliest.stands
      have hresult : (forms.findSome? fun form ↦ search form code.toList) ≠ none := by
        intro hnone
        exact findSome?_search_eq_none_iff.mp hnone f hf i name hstands
      obtain ⟨found, hfound⟩ := Option.ne_none_iff_exists'.mp hresult
      obtain ⟨k, hk⟩ := findSome?_search_eq_some_iff.mp hfound
      rw [hfound, hk.eq_of_not_overtaken hagree hearliest hnot]

/-! ## Telling the forms apart -/

/-- The first letter of a text, and the first one behind the keyword `export` if it stands there. -/
def letters (cs : List Char) : Option Char × Option Char :=
  (cs.head?, keyword? "export" cs >>= List.head?)

theorem exists_of_keyword? {s : String} {cs rest : List Char} (h : keyword? s cs = some rest) :
    ∃ more, cs = s.toList ++ more := by
  rw [keyword?, text?, Option.bind_eq_bind, Option.bind_eq_some_iff] at h
  obtain ⟨more, hmore, -⟩ := h
  exact ⟨more, Text.after?_eq_some_iff.mp hmore⟩

theorem head?_of_keyword? {s : String} {c : Char} {cs rest : List Char}
    (hs : s.toList.head? = some c) (h : keyword? s cs = some rest) : cs.head? = some c := by
  obtain ⟨more, rfl⟩ := exists_of_keyword? h
  simp [List.head?_append, hs]

theorem head?_of_optionalKeyword {cs rest : List Char}
    (h : keyword? "function" (optionalKeyword "async" cs) = some rest) :
    cs.head? = some 'a' ∨ cs.head? = some 'f' := by
  rw [optionalKeyword] at h
  cases hasync : keyword? "async" cs with
  | some more => exact .inl (head?_of_keyword? rfl hasync)
  | none =>
    rw [hasync, Option.getD_none] at h
    exact .inr (head?_of_keyword? rfl h)

theorem letters_of_export {cs rest : List Char} (h : keyword? "export" cs = some rest) :
    letters cs = (some 'e', rest.head?) := by
  rw [letters, h, head?_of_keyword? rfl h]
  rfl

theorem letters_of_no_export {c : Char} (hc : c ≠ 'e') {cs : List Char} (h : cs.head? = some c) :
    letters cs = (some c, none) := by
  have hnone : keyword? "export" cs = none := by
    rw [Option.eq_none_iff_forall_ne_some]
    intro rest hrest
    have he : cs.head? = some 'e' := head?_of_keyword? rfl hrest
    exact hc (Option.some.inj (h.symm.trans he))
  rw [letters, h, hnone]
  rfl

/-- The only place in the list of forms that the letters leave. -/
def formIndex (cs : List Char) : Nat :=
  match letters cs with
  | (some 'e', some 'd') => 1
  | (some 'e', some 'c') => 2
  | (some 'e', _) => 0
  | (some 'c', _) => 4
  | _ => 3

/-- Forms that never stand at one place agree. -/
theorem agree_of_formIndex {forms : List (List Char → Option String)}
    (h : ∀ k form, forms[k]? = some form → ∀ cs name, form cs = some name → formIndex cs = k) :
    Agree forms := by
  intro f hf g hg cs a b ha hb
  obtain ⟨i, hi⟩ := List.mem_iff_getElem?.mp hf
  obtain ⟨k, hk⟩ := List.mem_iff_getElem?.mp hg
  obtain rfl : i = k := (h i f hi cs a ha).symm.trans (h k g hk cs b hb)
  obtain rfl : f = g := Option.some.inj (hi.symm.trans hk)
  exact Option.some.inj (ha.symm.trans hb)

theorem formIndex_function {cs rest more : List Char} (h : keyword? "export" cs = some rest)
    (hfunction : keyword? "function" (optionalKeyword "async" rest) = some more) : formIndex cs = 0 := by
  rw [formIndex, letters_of_export h]
  rcases head?_of_optionalKeyword hfunction with hhead | hhead
  · rw [hhead]
    rfl
  · rw [hhead]
    rfl

theorem formIndex_default {cs rest more : List Char} (h : keyword? "export" cs = some rest)
    (hdefault : keyword? "default" rest = some more) : formIndex cs = 1 := by
  have hhead : rest.head? = some 'd' := head?_of_keyword? rfl hdefault
  rw [formIndex, letters_of_export h, hhead]
  rfl

theorem formIndex_constant {cs rest more : List Char} (h : keyword? "export" cs = some rest)
    (hconst : keyword? "const" rest = some more) : formIndex cs = 2 := by
  have hhead : rest.head? = some 'c' := head?_of_keyword? rfl hconst
  rw [formIndex, letters_of_export h, hhead]
  rfl

theorem keyword?_of_function? {cs : List Char} {name : String} (h : function? cs = some name) :
    ∃ rest, keyword? "function" (optionalKeyword "async" cs) = some rest := by
  rw [function?, functionName?] at h
  obtain ⟨⟨word, rest⟩, hword, -⟩ := Option.bind_eq_some_iff.mp h
  obtain ⟨more, hmore, -⟩ := Option.bind_eq_some_iff.mp hword
  exact ⟨more, hmore⟩

theorem agree_nameForms : Agree nameForms := by
  refine agree_of_formIndex fun k form hform cs name h ↦ ?_
  match k with
  | 0 =>
    obtain rfl : exportedFunction? = form := Option.some.inj hform
    obtain ⟨rest, hexport, hname⟩ := Option.bind_eq_some_iff.mp h
    obtain ⟨more, hfunction⟩ := keyword?_of_function? hname
    exact formIndex_function hexport hfunction
  | 1 =>
    obtain rfl : defaultFunction? = form := Option.some.inj hform
    obtain ⟨more, hmore, -⟩ := Option.bind_eq_some_iff.mp h
    obtain ⟨rest, hexport, hdefault⟩ := Option.bind_eq_some_iff.mp hmore
    exact formIndex_default hexport hdefault
  | 2 =>
    obtain rfl : exportedConstant? = form := Option.some.inj hform
    obtain ⟨word, hword, -⟩ := Option.bind_eq_some_iff.mp h
    obtain ⟨more, hmore, -⟩ := Option.bind_eq_some_iff.mp hword
    obtain ⟨rest, hexport, hconst⟩ := Option.bind_eq_some_iff.mp hmore
    exact formIndex_constant hexport hconst
  | 3 =>
    obtain rfl : function? = form := Option.some.inj hform
    obtain ⟨more, hfunction⟩ := keyword?_of_function? h
    rcases head?_of_optionalKeyword hfunction with hhead | hhead
    · rw [formIndex, letters_of_no_export (by decide) hhead]
      rfl
    · rw [formIndex, letters_of_no_export (by decide) hhead]
      rfl
  | 4 =>
    obtain rfl : constant? = form := Option.some.inj hform
    obtain ⟨word, hword, -⟩ := Option.bind_eq_some_iff.mp h
    obtain ⟨more, hconst, -⟩ := Option.bind_eq_some_iff.mp hword
    have hhead : cs.head? = some 'c' := head?_of_keyword? rfl hconst
    rw [formIndex, letters_of_no_export (by decide) hhead]
    rfl
  | k + 5 => cases hform

theorem agree_componentForms : Agree componentForms := by
  refine agree_of_formIndex fun k form hform cs name h ↦ ?_
  match k with
  | 0 =>
    obtain rfl : exportedComponent? = form := Option.some.inj hform
    obtain ⟨rest, hexport, hname⟩ := Option.bind_eq_some_iff.mp h
    obtain ⟨more, hfunction, -⟩ := Option.bind_eq_some_iff.mp hname
    exact formIndex_function hexport hfunction
  | 1 =>
    obtain rfl : defaultComponent? = form := Option.some.inj hform
    obtain ⟨more, hmore, -⟩ := Option.bind_eq_some_iff.mp h
    obtain ⟨rest, hexport, hdefault⟩ := Option.bind_eq_some_iff.mp hmore
    exact formIndex_default hexport hdefault
  | 2 =>
    obtain rfl : constantComponent? = form := Option.some.inj hform
    obtain ⟨more, hmore, -⟩ := Option.bind_eq_some_iff.mp h
    obtain ⟨rest, hexport, hconst⟩ := Option.bind_eq_some_iff.mp hmore
    exact formIndex_constant hexport hconst
  | k + 3 => cases hform

/-! ## The names -/

/-- The name behind a block and the component of a file are found in order of preference: for every text,
they are the names of the preferred declarations, and those of the earliest ones unless these are
overtaken. -/
theorem names_in_order (code : String) :
    NamedInOrder nameForms code (itemName? code) ∧
      NamedInOrder componentForms code (componentName? code) :=
  ⟨namedInOrder_findSome? agree_nameForms code, namedInOrder_findSome? agree_componentForms code⟩

/-- A constant component in front of a function component. -/
def badgeThenCard : String := "export const Badge = () => null;\nexport function Card() \x7b\x7d\n"

/-- The constant is the earliest declaration, and the function is named. -/
theorem later_function_named :
    (itemName? badgeThenCard = some "Card" ∧
      (∃ i, Earliest nameForms badgeThenCard i "Badge") ∧
      ¬∃ i, Earliest nameForms badgeThenCard i "Card") ∧
    (componentName? badgeThenCard = some "Card" ∧
      (∃ i, Earliest componentForms badgeThenCard i "Badge") ∧
      ¬∃ i, Earliest componentForms badgeThenCard i "Card") := by
  have hname : Earliest nameForms badgeThenCard 0 "Badge" :=
    ⟨⟨exportedConstant?, by simp [nameForms], by unfold StandsAt; decide +kernel⟩, by simp⟩
  have hcomponent : Earliest componentForms badgeThenCard 0 "Badge" :=
    ⟨⟨constantComponent?, by simp [componentForms], by unfold StandsAt; decide +kernel⟩, by simp⟩
  refine ⟨⟨by decide +kernel, ⟨0, hname⟩, ?_⟩, by decide +kernel, ⟨0, hcomponent⟩, ?_⟩
  · rintro ⟨i, hi⟩
    exact absurd (hname.unique agree_nameForms hi).2 (by decide)
  · rintro ⟨i, hi⟩
    exact absurd (hcomponent.unique agree_componentForms hi).2 (by decide)

end FeatureAtlas.Declaration
