import FeatureAtlas.Proofs.Config.PathField
import Mathlib.Data.List.Permutation

/-!
# Resolving the path fields of objects

As objects, the fields are set in the copy that merging makes, and in mappings below it that the copy owns. So the
configuration stays what it was, with all the objects it shares, while the copy becomes the resolved value.
-/

namespace FeatureAtlas

namespace Store

open Setting (Textual find? atPath? setPath)

section Field

variable {s : Store} {slot : Slot} {v w : Setting} {own : List Nat} {target : Nat}
  {cur out : List (SettingKey × Setting)} {environment : Environment} {base : Path}

/-- What is found at a path is the value there. -/
theorem exists_slotAt? (path : List String) : ∀ {slot : Slot} {v : Setting} {own : List Nat},
    Reads s slot v own → ∃ found, (slotAt? path slot).run s = .ok (found, s) ∧
      (∀ b, found = some b → ∃ w o, atPath? path v = some w ∧ Reads s b w o) ∧
      (found = none → atPath? path v = none) := by
  induction path with
  | nil =>
    intro slot v own h
    exact ⟨some slot, rfl, fun b hb ↦ ⟨v, own, rfl, Option.some.inj hb ▸ h⟩, fun hnone ↦ nomatch hnone⟩
  | cons key path ih =>
    intro slot v own h
    cases hv : v.entries? with
    | none =>
      have hmapping : (mapping? (some slot)).run s = .ok (none, s) :=
        run_mapping?_of_entries?_eq_none (v := some v)
          (fun b hb ↦ ⟨v, own, rfl, Option.some.inj hb ▸ h⟩) fun u hu ↦ Option.some.inj hu ▸ hv
      refine ⟨none, ?_, fun b hb ↦ (nomatch hb), fun _ ↦ ?_⟩
      · rw [slotAt?, run_bind hmapping]
        rfl
      · rw [atPath?, Setting.field?_eq_none hv]
        rfl
    | some es =>
      obtain rfl := Setting.eq_map_of_entries? hv
      cases h with
      | value h => exact h.elim
      | @map address tes _ rest hcell hentries =>
        obtain ⟨before, here, after, -, hnone, hsome, -⟩ := hentries.at_key (.text key)
        rw [slotAt?, run_bind (run_mapping?_of_map hcell)]
        dsimp only
        rw [run_bind (run_entries hcell)]
        cases hfind : find? (.text key) es with
        | none =>
          rw [hnone hfind]
          refine ⟨none, rfl, fun b hb ↦ (nomatch hb), fun _ ↦ ?_⟩
          rw [atPath?, Setting.field?, hfind]
          rfl
        | some u =>
          obtain ⟨below, hbelow, hread⟩ := hsome u hfind
          obtain ⟨found, hrun, hfound⟩ := ih hread
          rw [hbelow, atPath?, Setting.field?, hfind]
          exact ⟨found, hrun, hfound⟩

/-- Where there is something at a path of an owned mapping, another text is set there. -/
theorem turnsInto_assignAt (text : String) (path : List String) (hpath : path ≠ []) :
    ∀ {target : Nat} {cur : List (SettingKey × Setting)} {own : List Nat},
      Reads s (.object target) (.map cur) own → own.Nodup → atPath? path (.map cur) = some w →
      TurnsInto s own target (setPath (.str text) path cur)
        (assignAt (.value (.str text) trivial) path target) := by
  induction path with
  | nil => exact absurd rfl hpath
  | cons key path ih =>
    intro target cur own htarget hown hw
    cases path with
    | nil =>
      exact run_assign_made htarget hown (.refl List.nodup_nil) (.value (v := .str text) trivial) (.text key)
    | cons next rest =>
      obtain ⟨below, hbelow, hw⟩ := Setting.exists_map_of_atPath? hw
      have hcell : ∃ tes, s[target]? = some (.map tes) := by
        cases htarget with
        | map hcell _ => exact ⟨_, hcell⟩
      obtain ⟨tes, hcell⟩ := hcell
      obtain ⟨existing, here, hmapping, -, hnodup, hexisting, hturns⟩ := exists_below htarget hown hcell hbelow
      obtain ⟨s', own', hrun, hchanged, hread⟩ :=
        hturns (ih (List.cons_ne_nil next rest) hexisting hnodup hw)
      refine ⟨s', own', ?_, hchanged, ?_⟩
      · rw [assignAt, run_bind (run_entries hcell), run_bind hmapping]
        exact hrun
      · rw [setPath, hbelow]
        exact hread

/-- The action succeeds and turns an owned mapping into another one. -/
def Resolves (s : Store) (own : List Nat) (target : Nat) (vs : List (SettingKey × Setting))
    (action : Action (Except HomeError Unit)) : Prop :=
  ∃ s' own', action.run s = .ok (.ok (), s') ∧ Changed s s' own own' ∧ Reads s' (.object target) (.map vs) own'

theorem resolves_field {path : List String} (hpath : path ≠ [])
    (htarget : Reads s (.object target) (.map cur) own) (hown : own.Nodup)
    (h : PathField.resolveField environment base cur path = .ok out) :
    Resolves s own target out (resolveField environment base target path) := by
  obtain ⟨found, hrun, hfound, hmissing⟩ := exists_slotAt? path htarget
  by_cases hholds : ∃ raw, PathField.Holds cur path raw
  · obtain ⟨raw, hraw⟩ := hholds
    rw [PathField.resolveField_of_holds hraw] at h
    obtain ⟨text, htext, rfl⟩ := map_eq_ok.mp h
    have hslot : found = some (.value (.str raw) trivial) := by
      cases found with
      | none => cases (hmissing rfl).symm.trans hraw.1
      | some b =>
        obtain ⟨u, o, hu, hread⟩ := hfound b rfl
        obtain rfl := Option.some.inj (hu.symm.trans hraw.1)
        cases hread with
        | value h => rfl
    have hne : ¬(raw == "") = true := by simpa using hraw.2
    obtain ⟨s', own', hassign, hchanged, hread⟩ := turnsInto_assignAt text path hpath htarget hown hraw.1
    refine ⟨s', own', ?_, hchanged, hread⟩
    rw [resolveField, run_bind hrun, hslot]
    dsimp only
    rw [if_neg hne, htext]
    dsimp only
    rw [run_bind hassign]
    rfl
  · rw [PathField.resolveField_of_not_holds (not_exists.mp hholds)] at h
    obtain rfl := Except.ok.inj h
    refine ⟨s, own, ?_, .refl hown, htarget⟩
    rw [resolveField, run_bind hrun]
    split
    · next raw _ =>
      obtain ⟨u, o, hu, hread⟩ := hfound _ rfl
      have hempty : (raw == "") = true := by
        cases hread with
        | value h =>
          by_contra hne
          exact hholds ⟨raw, hu, by simpa using hne⟩
      rw [if_pos hempty]
      rfl
    · rfl

theorem resolves_fields {fields : List (List String)} (hne : ∀ field ∈ fields, field ≠ []) :
    ∀ {s : Store} {cur : List (SettingKey × Setting)} {own : List Nat},
      Reads s (.object target) (.map cur) own → own.Nodup →
      fields.foldlM (PathField.resolveField environment base) cur = .ok out →
      Resolves s own target out (resolveFields environment base target fields) := by
  induction fields with
  | nil =>
    intro s cur own htarget hown h
    obtain rfl := Except.ok.inj h
    exact ⟨s, own, rfl, .refl hown, htarget⟩
  | cons field fields ih =>
    intro s cur own htarget hown h
    obtain ⟨hfield, hfields⟩ := List.forall_mem_cons.mp hne
    obtain ⟨cur', hcur', h⟩ := bind_eq_ok.mp h
    obtain ⟨s₁, own₁, hrun₁, hchanged₁, hread₁⟩ := resolves_field hfield htarget hown hcur'
    obtain ⟨s₂, own₂, hrun₂, hchanged₂, hread₂⟩ := ih hfields hread₁ hchanged₁.nodup h
    refine ⟨s₂, own₂, ?_, hchanged₁.trans hchanged₂, hread₂⟩
    rw [resolveFields, run_bind hrun₁]
    exact hrun₂

end Field

/-- **Resolving the path fields of an object makes a new one.** The given one is as it was. -/
theorem exists_normalizePaths {environment : Environment} {base : Path} {config r : List (SettingKey × Setting)}
    {s : Store} {address depth : Nat} {o : List Nat} (hconfig : Textual (.map config))
    (hr : PathField.normalize environment base config = .ok r)
    (hread : Reads s (.object address) (.map config) o) (hdepth : o.length ≤ depth) :
    ∃ out s' own, (normalizePaths depth environment base address).run s = .ok (.ok out, s') ∧
      Changed s s' [] own ∧ Reads s' (.object out) (.map r) own := by
  obtain ⟨merged, hmerged, -, -, hr⟩ := PathField.normalize_eq_ok hconfig hr
  have hnew : Changed s (s ++ [.map []]) [] [s.length] :=
    (Changed.refl List.nodup_nil).make (List.forall_mem_nil _) _
  have hempty : Reads (s ++ [.map []]) (.object s.length) (.map []) [s.length] :=
    .map List.getElem?_concat_length .nil
  have hpositive : 1 ≤ depth := by
    cases hread with
    | map _ _ => exact Nat.le_trans (Nat.succ_le_succ (Nat.zero_le _)) hdepth
  obtain ⟨target, s₁, own₁, hrun₁, hchanged₁, hmade⟩ :=
    run_merge hempty (hread.append _) hpositive hdepth Setting.textual_map_nil hconfig hmerged
  obtain ⟨s₂, own₂, hrun₂, hchanged₂, hresolved⟩ :=
    resolves_fields PathField.forall_mem_all_ne_nil hmade hchanged₁.nodup hr
  refine ⟨target, s₂, own₂, ?_, ?_, hresolved⟩
  · rw [normalizePaths, run_bind (run_make _), run_bind hrun₁, run_bind hrun₂]
    rfl
  · exact hnew.trans ((hchanged₁.trans hchanged₂).mono [s.length])

end Store

namespace PathField

open Setting (Textual SameMapping atPath? faceAt)

end PathField

end FeatureAtlas
