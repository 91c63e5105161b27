import FeatureAtlas.Proofs.Config.Reading

/-!
# When validation stops

A check collects issues and goes on. The only check that can stop the validation is that of a pattern: a
fault of its syntax is an issue, but a pattern can fail in two other ways, and then nothing is reported. Each
check either ends, whatever the issues before it, or stops; so the validation of a setting stops exactly if
it reads such a pattern.
-/

namespace FeatureAtlas

namespace Check

variable {α β : Type}

/-- The check ends with the value, whatever the issues before it. -/
def EndsWith (m : Check α) (x : α) : Prop := ∀ issues, ∃ issues', m.run issues = .ok (x, issues')

/-- The check ends, with a value that does not depend on the issues before it. -/
class Ends (m : Check α) : Prop where
  ends : ∃ x, EndsWith m x

/-- The check stops if the condition holds, and else ends. -/
structure StopsIff (m : Check α) (p : Prop) : Prop where
  ends : ¬ p → ∃ x, EndsWith m x
  stops : p → ∀ issues, ∃ e, m.run issues = .error e

/-! ## Steps -/

theorem EndsWith.run_bind {m : Check α} {x : α} (h : EndsWith m x) (f : α → Check β)
    (issues : List ConfigIssue) : ∃ issues', (m >>= f).run issues = (f x).run issues' := by
  obtain ⟨issues', hm⟩ := h issues
  refine ⟨issues', ?_⟩
  rw [StateT.run_bind, hm]
  rfl

theorem EndsWith.bind {m : Check α} {x : α} (h : EndsWith m x) {f : α → Check β} {y : β}
    (hf : EndsWith (f x) y) : EndsWith (m >>= f) y := by
  intro issues
  obtain ⟨issues', hrun⟩ := h.run_bind f issues
  rw [hrun]
  exact hf issues'

theorem endsWith_pure (x : α) : EndsWith (pure x) x := fun issues ↦ ⟨issues, rfl⟩

theorem endsWith_issue (path message : String) : EndsWith (issue path message) () :=
  fun issues ↦ ⟨issues ++ [⟨path, message⟩], rfl⟩

theorem endsWith_refuse (path message : String) :
    EndsWith (refuse path message : Check (Option α)) none :=
  (endsWith_issue path message).bind (endsWith_pure none)

instance ends_pure (x : α) : Ends (pure x : Check α) := ⟨x, endsWith_pure x⟩

instance ends_issue (path message : String) : Ends (issue path message) :=
  ⟨(), endsWith_issue path message⟩

instance ends_refuse (path message : String) : Ends (refuse path message : Check (Option α)) :=
  ⟨none, endsWith_refuse path message⟩

instance ends_bind (m : Check α) (f : α → Check β) [hm : Ends m] [hf : ∀ x, Ends (f x)] :
    Ends (m >>= f) := by
  obtain ⟨x, hx⟩ := hm.ends
  obtain ⟨y, hy⟩ := (hf x).ends
  exact ⟨y, hx.bind hy⟩

instance ends_ite (p : Prop) [Decidable p] (m n : Check α) [hm : Ends m] [hn : Ends n] :
    Ends (if p then m else n) := by
  split
  · exact hm
  · exact hn

theorem EndsWith.stopsIff_bind {m : Check α} {x : α} (h : EndsWith m x) {f : α → Check β} {p : Prop}
    (hf : StopsIff (f x) p) : StopsIff (m >>= f) p := by
  refine ⟨fun hp ↦ ?_, fun hp issues ↦ ?_⟩
  · obtain ⟨y, hy⟩ := hf.ends hp
    exact ⟨y, h.bind hy⟩
  · obtain ⟨issues', hrun⟩ := h.run_bind f issues
    rw [hrun]
    exact hf.stops hp issues'

theorem Ends.stopsIff_bind (m : Check α) [hm : Ends m] {f : α → Check β} {p : Prop}
    (hf : ∀ x, StopsIff (f x) p) : StopsIff (m >>= f) p := by
  obtain ⟨x, hx⟩ := hm.ends
  exact hx.stopsIff_bind (hf x)

theorem StopsIff.bind {m : Check α} {f : α → Check β} {p q : Prop} (hm : StopsIff m p)
    (hf : ∀ x, StopsIff (f x) q) : StopsIff (m >>= f) (p ∨ q) := by
  by_cases hp : p
  · refine ⟨fun hpq ↦ absurd (.inl hp) hpq, fun _ issues ↦ ?_⟩
    obtain ⟨e, he⟩ := hm.stops hp issues
    refine ⟨e, ?_⟩
    rw [StateT.run_bind, he]
    rfl
  · obtain ⟨x, hx⟩ := hm.ends hp
    rw [or_iff_right hp]
    exact hx.stopsIff_bind (hf x)

theorem stopsIff_of_ends (m : Check α) [hm : Ends m] {p : Prop} (hp : ¬ p) : StopsIff m p :=
  ⟨fun _ ↦ hm.ends, fun h ↦ absurd h hp⟩

theorem StopsIff.congr {m : Check α} {p q : Prop} (h : StopsIff m p) (hpq : p ↔ q) : StopsIff m q :=
  ⟨fun hq ↦ h.ends (mt hpq.mp hq), fun hq ↦ h.stops (hpq.mpr hq)⟩

/-! ## Checks that end -/

theorem endsWith_text (path : String) (v : Setting) : EndsWith (text path v) (Reading.text v) := by
  cases v with
  | str s =>
    rw [text, Reading.text]
    simp only [beq_iff_eq]
    split
    · exact endsWith_refuse _ _
    · exact endsWith_pure _
  | _ => exact endsWith_refuse _ _

theorem endsWith_textsFrom (path : String) (xs : List Setting) :
    ∀ index, EndsWith (textsFrom path index xs) (Reading.textList xs) := by
  induction xs with
  | nil =>
    intro index
    exact endsWith_pure _
  | cons x xs ih =>
    intro index
    exact (endsWith_text (at_ path index) x).bind ((ih (index + 1)).bind (endsWith_pure _))

theorem endsWith_texts (path : String) (v : Setting) : EndsWith (texts path v) (Reading.texts v) := by
  rw [texts, Reading.texts]
  cases elements? v with
  | none => exact endsWith_refuse _ _
  | some xs => exact endsWith_textsFrom path xs 0

instance ends_text (path : String) (v : Setting) : Ends (text path v) := ⟨_, endsWith_text path v⟩

instance ends_texts (path : String) (v : Setting) : Ends (texts path v) := ⟨_, endsWith_texts path v⟩

/-- Going on without a value and with one. -/
theorem Ends.bind_option (m : Check (Option α)) [hm : Ends m] {f : Option α → Check β}
    (hnone : Ends (f none)) (hsome : ∀ x, Ends (f (some x))) : Ends (m >>= f) := by
  have hf : ∀ r, Ends (f r)
    | none => hnone
    | some x => hsome x
  exact ends_bind m f

instance ends_pathText (path : String) (v : Setting) : Ends (pathText path v) :=
  Ends.bind_option (text path v) (ends_pure none) fun _ ↦ ends_ite _ _ _

instance ends_integer (minimum : Int) (path : String) (v : Setting) :
    Ends (integer minimum path v) := by
  cases v with
  | int n => exact ends_ite _ _ _
  | _ => exact ends_refuse _ _

instance ends_oneOf (words : List String) (path : String) (v : Setting) :
    Ends (oneOf words path v) :=
  Ends.bind_option (text path v) (ends_pure none) fun _ ↦ ends_ite _ _ _

instance ends_version (path : String) (v : Setting) : Ends (version path v) :=
  Ends.bind_option (integer 1 path v) (ends_pure none) fun _ ↦ ends_ite _ _ _

instance ends_globs (path : String) (v : Setting) : Ends (globs path v) :=
  Ends.bind_option (texts path v) (ends_pure none) fun _ ↦ ends_ite _ _ _

instance ends_logLevel (path : String) (v : Setting) : Ends (logLevel path v) :=
  inferInstanceAs (Ends (oneOf _ _ _))

instance ends_logFile (path : String) (v : Setting) : Ends (logFile path v) := by
  cases v with
  | str s => exact ends_ite _ _ _
  | _ => exact ends_pathText _ _

instance ends_forM (ks : List String) (f : String → Check Unit) [hf : ∀ k, Ends (f k)] :
    Ends (ks.forM f) := by
  induction ks with
  | nil => exact ends_pure ()
  | cons k ks ih => exact ends_bind (f k) fun _ ↦ ks.forM f

instance ends_shape (allowed : List String) (path : String) (fields : Table Setting) :
    Ends (shape allowed path fields) :=
  ends_bind _ _

instance ends_field (fields : Table Setting) (path key : String)
    (check : String → Setting → Check (Option α)) [hcheck : ∀ p v, Ends (check p v)] :
    Ends (field fields path key check) := by
  rw [field]
  split
  · exact ends_pure none
  · exact hcheck _ _

instance ends_metaSection (path : String) (fields : Table Setting) : Ends (metaSection path fields) :=
  ends_bind _ _

instance ends_mapSection (path : String) (fields : Table Setting) : Ends (mapSection path fields) :=
  ends_bind _ _

instance ends_observabilitySection (path : String) (fields : Table Setting) :
    Ends (observabilitySection path fields) :=
  ends_bind _ _

/-! ## Objects -/

/-- The entries with text keys. -/
def textFields (es : List (SettingKey × Setting)) : Table Setting :=
  es.filterMap fun e ↦ e.1.text?.map (·, e.2)

theorem lookup_textFields (es : List (SettingKey × Setting)) (key : String) :
    (textFields es).lookup key = Setting.find? (.text key) es := by
  induction es with
  | nil => rfl
  | cons e es ih =>
    obtain ⟨k, v⟩ := e
    rw [Setting.find?_cons, textFields, List.filterMap_cons]
    cases hk : k.text? with
    | none =>
      have hne : k ≠ .text key := by
        rintro rfl
        cases hk
      rw [if_neg hne]
      exact ih
    | some s =>
      rw [SettingKey.text?_eq_some.mp hk]
      by_cases hs : s = key
      · simp [hs]
      · have hbeq : (key == s) = false := beq_eq_false_iff_ne.mpr (Ne.symm hs)
        rw [if_neg (by simpa using hs)]
        simp only [Option.map_some, List.lookup_cons, hbeq]
        exact ih

theorem endsWith_fieldsOf (path : String) (es : List (SettingKey × Setting)) :
    EndsWith (fieldsOf path es) (textFields es) := by
  induction es with
  | nil => exact endsWith_pure []
  | cons e es ih =>
    obtain ⟨k, v⟩ := e
    cases k with
    | text s => exact ih.bind (endsWith_pure _)
    | _ => exact (endsWith_issue _ _).bind ih

/-- The fields of a mapping that are looked at. -/
def fields? : Setting → Option (Table Setting)
  | .map es => some (textFields es)
  | _ => none

theorem endsWith_object (path : String) (v : Setting) : EndsWith (object path v) (fields? v) := by
  cases v with
  | map es => exact (endsWith_fieldsOf path es).bind (endsWith_pure _)
  | _ => exact endsWith_refuse _ _

theorem lookup_of_fields? {v : Setting} {fields : Table Setting} (h : fields? v = some fields)
    (key : String) : fields.lookup key = v.field? key := by
  cases v with
  | map es =>
    obtain rfl := Option.some.inj h
    exact lookup_textFields es key
  | _ => cases h

theorem field?_of_fields?_eq_none {v : Setting} (h : fields? v = none) (key : String) :
    v.field? key = none := by
  cases v with
  | map es => cases h
  | _ => rfl

/-! ## Patterns -/

/-- The pattern text fails otherwise than by a fault of its syntax. -/
def Unreported (s : String) : Prop :=
  ∃ e, Pattern.compile s = .error e ∧ ∀ f position, e ≠ .fault f position

/-- A list of texts, one of which fails without a report. -/
def Offending (v : Setting) : Prop := ∃ ps, Reading.texts v = some ps ∧ ∃ s ∈ ps, Unreported s

theorem stopsIff_patternsFrom (path : String) (ps : List String) :
    ∀ index, StopsIff (patternsFrom path index ps) (∃ s ∈ ps, Unreported s) := by
  induction ps with
  | nil =>
    intro index
    have : Ends (patternsFrom path index []) := ends_pure true
    exact stopsIff_of_ends _ (by simp)
  | cons s ps ih =>
    intro index
    have hrest := ih (index + 1)
    rw [patternsFrom]
    split
    · next p hp =>
      have hs : ¬ Unreported s := by
        rintro ⟨e, he, -⟩
        rw [hp] at he
        cases he
      exact hrest.congr (by simp [hs])
    · next f position hp =>
      have hs : ¬ Unreported s := by
        rintro ⟨e, he, hfault⟩
        rw [hp] at he
        exact hfault f position (Except.error.inj he).symm
      have hbind : StopsIff (patternsFrom path (index + 1) ps >>= fun _ ↦ pure false)
          ((∃ s ∈ ps, Unreported s) ∨ False) :=
        hrest.bind fun _ ↦ stopsIff_of_ends _ not_false
      exact (Ends.stopsIff_bind (issue _ _) fun _ ↦ hbind).congr (by simp [hs])
    · next e hfault hp =>
      have hs : ∃ s' ∈ s :: ps, Unreported s' := ⟨s, List.mem_cons_self, e, hp, hfault⟩
      exact ⟨fun h ↦ absurd hs h, fun _ issues ↦ ⟨⟨s, e⟩, rfl⟩⟩

theorem stopsIff_patterns (path : String) (v : Setting) :
    StopsIff (patterns path v) (Offending v) := by
  refine (endsWith_texts path v).stopsIff_bind ?_
  cases hps : Reading.texts v with
  | none => exact stopsIff_of_ends _ (by simp [Offending, hps])
  | some ps =>
    have hbind : StopsIff (patternsFrom path 0 ps >>= fun ok ↦ pure (if ok then some ps else none))
        ((∃ s ∈ ps, Unreported s) ∨ False) :=
      (stopsIff_patternsFrom path ps 0).bind fun _ ↦ stopsIff_of_ends _ not_false
    exact hbind.congr (by simp [Offending, hps])

theorem StopsIff.field {fields : Table Setting} {path key : String}
    {check : String → Setting → Check (Option α)} {p : Setting → Prop}
    (h : ∀ path v, StopsIff (check path v) (p v)) :
    StopsIff (field fields path key check) (∃ v, fields.lookup key = some v ∧ p v) := by
  rw [Check.field]
  cases hkey : fields.lookup key with
  | none => exact stopsIff_of_ends _ (by simp)
  | some v => exact (h _ v).congr (by simp)

/-- The fields that hold patterns. -/
def patternKeys : List String := ["component_patterns", "action_patterns", "module_patterns"]

theorem stopsIff_analysisSection (path : String) (fields : Table Setting) :
    StopsIff (analysisSection path fields)
      (∃ key ∈ patternKeys, ∃ v, fields.lookup key = some v ∧ Offending v) := by
  rw [analysisSection]
  refine (Ends.stopsIff_bind _ fun _ ↦ Ends.stopsIff_bind _ fun tsconfig ↦
    (StopsIff.field stopsIff_patterns).bind fun component ↦
    (StopsIff.field stopsIff_patterns).bind fun action ↦
    (StopsIff.field stopsIff_patterns).bind fun module ↦
    stopsIff_of_ends _ not_false).congr ?_
  simp [patternKeys]

/-! ## Validation -/

theorem StopsIff.checkSection {fields : Table Setting} {key : String}
    {check : String → Table Setting → Check (Option α)} {p : Table Setting → Prop}
    (h : ∀ path inner, StopsIff (check path inner) (p inner)) :
    StopsIff (checkSection fields key check)
      (∃ v inner, fields.lookup key = some v ∧ fields? v = some inner ∧ p inner) := by
  rw [Check.checkSection]
  cases hkey : fields.lookup key with
  | none => exact stopsIff_of_ends _ (by simp)
  | some v =>
    cases v with
    | null => exact stopsIff_of_ends _ (by simp [fields?])
    | map es =>
      refine (endsWith_object key (.map es)).stopsIff_bind ?_
      exact (h key (textFields es)).congr (by simp [fields?])
    | _ => exact (endsWith_refuse _ _).stopsIff_bind (stopsIff_of_ends (pure none) (by simp [fields?]))

instance ends_checkSection (fields : Table Setting) (key : String)
    (check : String → Table Setting → Check (Option α)) [h : ∀ path inner, Ends (check path inner)] :
    Ends (checkSection fields key check) := by
  have hstops : StopsIff (checkSection fields key check) _ :=
    StopsIff.checkSection fun path inner ↦ stopsIff_of_ends (check path inner) not_false
  exact ⟨hstops.ends (by simp)⟩

/-- The setting has an analysis section with patterns that fail without a report. -/
def Offends (v : Setting) : Prop :=
  ∃ key ∈ patternKeys, ∃ x, Setting.atPath? ["analysis", key] v = some x ∧ Offending x

theorem atPath?_analysis {v x : Setting} {fields : Table Setting} (hfields : fields? v = some fields)
    {key : String} :
    Setting.atPath? ["analysis", key] v = some x ↔
      ∃ w inner, fields.lookup "analysis" = some w ∧ fields? w = some inner ∧
        inner.lookup key = some x := by
  simp only [Setting.atPath?, Option.bind_eq_bind, Option.bind_eq_some_iff, Option.some.injEq,
    exists_eq_right, lookup_of_fields? hfields]
  constructor
  · rintro ⟨w, hw, hx⟩
    cases hinner : fields? w with
    | none =>
      rw [field?_of_fields?_eq_none hinner] at hx
      cases hx
    | some inner => exact ⟨w, inner, hw, hinner, (lookup_of_fields? hinner key).trans hx⟩
  · rintro ⟨w, inner, hw, hinner, hx⟩
    exact ⟨w, hw, (lookup_of_fields? hinner key).symm.trans hx⟩

theorem stopsIff_root (v : Setting) : StopsIff (root v) (Offends v) := by
  refine (endsWith_object "<root>" v).stopsIff_bind ?_
  cases hfields : fields? v with
  | none =>
    refine stopsIff_of_ends _ ?_
    rintro ⟨key, -, x, hx, -⟩
    simp [Setting.atPath?, field?_of_fields?_eq_none hfields] at hx
  | some fields =>
    refine (Ends.stopsIff_bind _ fun _ ↦ Ends.stopsIff_bind _ fun _ ↦ Ends.stopsIff_bind _ fun _ ↦
      (StopsIff.checkSection stopsIff_analysisSection).bind fun _ ↦
      stopsIff_of_ends _ not_false).congr ?_
    simp only [Offends, atPath?_analysis hfields, or_false]
    constructor
    · rintro ⟨w, inner, hw, hinner, key, hkey, x, hx, hoffending⟩
      exact ⟨key, hkey, x, ⟨w, inner, hw, hinner, hx⟩, hoffending⟩
    · rintro ⟨key, hkey, x, ⟨w, inner, hw, hinner, hx⟩, hoffending⟩
      exact ⟨w, inner, hw, hinner, key, hkey, x, hx, hoffending⟩

end Check

/-- **Validation stops exactly at a pattern that fails without a report.** -/
theorem Config.validate_isError_iff (v : Setting) :
    (∃ e, Config.validate v = .error e) ↔ Check.Offends v := by
  have hroot := Check.stopsIff_root v
  rw [Config.validate]
  by_cases h : Check.Offends v
  · obtain ⟨e, he⟩ := hroot.stops h []
    rw [he]
    exact iff_of_true ⟨e, rfl⟩ h
  · obtain ⟨c, hc⟩ := hroot.ends h
    obtain ⟨issues, hrun⟩ := hc []
    rw [hrun]
    refine iff_of_false ?_ h
    rintro ⟨e, he⟩
    cases he

end FeatureAtlas
