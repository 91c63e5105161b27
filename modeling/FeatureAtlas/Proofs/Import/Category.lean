import FeatureAtlas.Import.Category
import FeatureAtlas.Proofs.Pattern.Match
import Mathlib

/-!
# Categories of an unconfigured project

The default patterns come down to three parts of a specifier. In each list one pattern is for such a part alone,
and the others ask for the same part with something in front of it. So they never decide anything, and a
specifier has the category of the first part that occurs in it.
-/

namespace FeatureAtlas

open Pattern (literal spelled char)

/-- The default patterns that are for a part of a specifier alone. -/
def PatternTexts.essential : PatternTexts where
  component := ["/components/"]
  action := ["/actions/"]
  module := ["/lib/(?!actions)"]

namespace ImportCategory

/-- The pattern for a part of a specifier with some characters in front of it. -/
def behind (front part : String) : Pattern := literal (front.toList ++ part.toList)

/-- The pattern for a part anywhere below an application directory. -/
def belowApp (part : String) : Pattern :=
  spelled "/app/".toList (.seq (.repeated {} .greedy 0 Option.none (.one {} .any)) (literal part.toList))

/-- The pattern for a library directory that is not the one of the actions. -/
def library (front : String) : Pattern :=
  spelled (front.toList ++ "/lib/".toList) (.ahead true (literal "actions".toList))

/-- `/lib/` stands somewhere in the specifier without `actions` right behind it. -/
def NamesLibrary (specifier : String) : Prop :=
  ∃ front rest, specifier.toList = front ++ "/lib/".toList ++ rest ∧ ¬"actions".toList <+: rest

theorem compile_essential : PatternTexts.essential.compile = .ok
    { component := [behind "" "/components/"]
      action := [behind "" "/actions/"]
      module := [library ""] } := by
  cbv

set_option maxRecDepth 10000 in
theorem compile_default : PatternTexts.default.compile = .ok
    { component := [behind "" "/components/", behind "@" "/components/", belowApp "/components/"]
      action := [behind "/lib" "/actions/", behind "@/lib" "/actions/", behind "" "/actions/",
        behind "@" "/actions/"]
      module := [library "", library "@"] } := by
  cbv

section

variable {specifier front part : String}

theorem infix_of_behind (h : (behind front part).occursIn specifier = true) :
    part.toList <:+: specifier.toList :=
  (List.suffix_append _ _).isInfix.trans ((Pattern.occursIn_literal _).mp h)

theorem occursIn_behind_nil : (behind "" part).occursIn specifier = true ↔
    part.toList <:+: specifier.toList := Pattern.occursIn_literal part.toList

theorem namesLibrary_of_library (h : (library front).occursIn specifier = true) :
    NamesLibrary specifier := by
  obtain ⟨before, rest, htext, hrest⟩ := (Pattern.occursIn_spelled_ahead _ _).mp h
  exact ⟨before ++ front.toList, rest, by simp only [htext, List.append_assoc], hrest⟩

theorem occursIn_library_nil : (library "").occursIn specifier = true ↔ NamesLibrary specifier :=
  Pattern.occursIn_spelled_ahead "/lib/".toList "actions".toList

/-- A pattern of a list that finds nothing beyond another one of the list can be left out. -/
theorem any_default_component :
    [behind "" "/components/", behind "@" "/components/", belowApp "/components/"].any
      (·.occursIn specifier) = true ↔ "/components/".toList <:+: specifier.toList := by
  simp only [List.any_cons, List.any_nil, Bool.or_false, Bool.or_eq_true]
  constructor
  · rintro (h | h | h)
    · exact infix_of_behind h
    · exact infix_of_behind h
    · exact Pattern.infix_of_occursIn_spelled_seq h
  · exact fun h ↦ Or.inl (occursIn_behind_nil.mpr h)

theorem any_default_action :
    [behind "/lib" "/actions/", behind "@/lib" "/actions/", behind "" "/actions/",
      behind "@" "/actions/"].any (·.occursIn specifier) = true ↔
      "/actions/".toList <:+: specifier.toList := by
  simp only [List.any_cons, List.any_nil, Bool.or_false, Bool.or_eq_true]
  constructor
  · rintro (h | h | h | h) <;> exact infix_of_behind h
  · exact fun h ↦ Or.inr (Or.inr (Or.inl (occursIn_behind_nil.mpr h)))

theorem any_default_module :
    [library "", library "@"].any (·.occursIn specifier) = true ↔ NamesLibrary specifier := by
  simp only [List.any_cons, List.any_nil, Bool.or_false, Bool.or_eq_true]
  constructor
  · rintro (h | h) <;> exact namesLibrary_of_library h
  · exact fun h ↦ Or.inl (occursIn_library_nil.mpr h)

/-- The category of a specifier, by what each of the three lists finds. -/
theorem ofSpecifier_iff {patterns : ImportPatterns} {component action module : Prop}
    (hcomponent : patterns.component.any (·.occursIn specifier) = true ↔ component)
    (haction : patterns.action.any (·.occursIn specifier) = true ↔ action)
    (hmodule : patterns.module.any (·.occursIn specifier) = true ↔ module) :
    (ofSpecifier patterns specifier = .component ↔ component) ∧
    (ofSpecifier patterns specifier = .action ↔ ¬component ∧ action) ∧
    (ofSpecifier patterns specifier = .module ↔ ¬component ∧ ¬action ∧ module) ∧
    (ofSpecifier patterns specifier = .none ↔ ¬component ∧ ¬action ∧ ¬module) := by
  rw [← hcomponent, ← haction, ← hmodule, ofSpecifier]
  grind

theorem ofSpecifier_congr {p q : ImportPatterns}
    (hcomponent : p.component.any (·.occursIn specifier) = true ↔
      q.component.any (·.occursIn specifier) = true)
    (haction : p.action.any (·.occursIn specifier) = true ↔ q.action.any (·.occursIn specifier) = true)
    (hmodule : p.module.any (·.occursIn specifier) = true ↔ q.module.any (·.occursIn specifier) = true) :
    ofSpecifier p specifier = ofSpecifier q specifier := by
  rw [ofSpecifier, ofSpecifier, Bool.eq_iff_iff.mpr hcomponent, Bool.eq_iff_iff.mpr haction,
    Bool.eq_iff_iff.mpr hmodule]

end

/-- **The default patterns are tests for three parts of a specifier**: it is a component import if
`/components/` occurs in it, else an action import if `/actions/` does, else a module import if `/lib/` occurs
somewhere without `actions` right behind it, and else none of these. The other default patterns never change
the category. -/
theorem ofSpecifier_default : ∃ patterns essential, PatternTexts.default.compile = .ok patterns ∧
    PatternTexts.essential.compile = .ok essential ∧ ∀ specifier : String,
      (ofSpecifier patterns specifier = .component ↔ "/components/".toList <:+: specifier.toList) ∧
      (ofSpecifier patterns specifier = .action ↔
        ¬"/components/".toList <:+: specifier.toList ∧ "/actions/".toList <:+: specifier.toList) ∧
      (ofSpecifier patterns specifier = .module ↔
        ¬"/components/".toList <:+: specifier.toList ∧ ¬"/actions/".toList <:+: specifier.toList ∧
          NamesLibrary specifier) ∧
      (ofSpecifier patterns specifier = .none ↔
        ¬"/components/".toList <:+: specifier.toList ∧ ¬"/actions/".toList <:+: specifier.toList ∧
          ¬NamesLibrary specifier) ∧
      ofSpecifier essential specifier = ofSpecifier patterns specifier := by
  refine ⟨_, _, compile_default, compile_essential, fun specifier ↦ ?_⟩
  obtain ⟨hcomponent, haction, hmodule, hnone⟩ :=
    @ofSpecifier_iff specifier ⟨_, _, _⟩ _ _ _ any_default_component any_default_action
      any_default_module
  have hlast : ∀ p : Pattern, [p].any (·.occursIn specifier) = true ↔ p.occursIn specifier = true :=
    fun p ↦ by rw [List.any_cons, List.any_nil, Bool.or_false]
  refine ⟨hcomponent, haction, hmodule, hnone, ofSpecifier_congr ?_ ?_ ?_⟩
  · exact (hlast _).trans (occursIn_behind_nil.trans any_default_component.symm)
  · exact (hlast _).trans (occursIn_behind_nil.trans any_default_action.symm)
  · exact (hlast _).trans (occursIn_library_nil.trans any_default_module.symm)

end ImportCategory

end FeatureAtlas
