import FeatureAtlas.Proofs.Config.Keyed
import FeatureAtlas.Proofs.Config.Ordered

/-!
# Laws of layers

Settings are compared as mappings, path by path: the order of entries does not count, and of a mapping it only
counts that it is one. What an overlay leaves at a path is then a function of what stands there and in front of
it in both layers (`laidAt`), by recursion on the path, and the laws of layers are laws of this function: layers
that change nothing, layers that are laid twice, and three layers in either grouping. Three layers can be
grouped as long as the middle one does not cut off a mapping that the outer ones share.
-/

namespace FeatureAtlas.Setting

/-! ## Text keys throughout -/

/-- All keys of all mappings in a value are texts, and each mapping holds each key once. -/
inductive Textual : Setting → Prop
  | scalar {v : Setting} (h : v.IsScalar) : Textual v
  | list {xs : List Setting} (h : ∀ x ∈ xs, Textual x) : Textual (.list xs)
  | map {es : List (SettingKey × Setting)} (hkeys : ∀ e ∈ es, ∃ s, e.1 = .text s)
    (hone : OneEach es) (h : ∀ e ∈ es, Textual e.2) : Textual (.map es)

theorem textual_map_iff {es : List (SettingKey × Setting)} : Textual (.map es) ↔
    (∀ e ∈ es, ∃ s, e.1 = .text s) ∧ OneEach es ∧ ∀ e ∈ es, Textual e.2 := by
  constructor
  · intro h
    cases h with
    | scalar h => exact h.elim
    | map hkeys hone h => exact ⟨hkeys, hone, h⟩
  · exact fun h ↦ .map h.1 h.2.1 h.2.2

theorem textual_map_nil : Textual (.map []) :=
  .map (List.forall_mem_nil _) List.nodup_nil (List.forall_mem_nil _)

theorem Textual.of_find? {es : List (SettingKey × Setting)} (h : Textual (.map es)) {k : SettingKey}
    {v : Setting} (hv : find? k es = some v) : Textual v := by
  have hvalues := (textual_map_iff.mp h).2.2
  clear h
  induction es with
  | nil => cases hv
  | cons e es ih =>
    obtain ⟨he, hes⟩ := List.forall_mem_cons.mp hvalues
    rw [find?] at hv
    split at hv
    · rwa [← Option.some.inj hv]
    · exact ih hv hes

theorem Textual.insert {es : List (SettingKey × Setting)} (h : Textual (.map es)) {k : SettingKey}
    (hk : ∃ s, k = .text s) {v : Setting} (hv : Textual v) :
    Textual (.map (Setting.insert k v es)) := by
  obtain ⟨hkeys, hone, hvalues⟩ := textual_map_iff.mp h
  refine .map (text_of_mem_insert hk hkeys) (hone.insert k v) fun e he ↦ ?_
  rcases mem_of_mem_insert he with hmem | ⟨heq, -⟩
  · exact hvalues e hmem
  · rwa [heq]

theorem Textual.ordered {v : Setting} (h : Textual v) : Ordered v := by
  induction h with
  | scalar h =>
    refine .leaf ?_
    cases ‹Setting› with
    | map es => exact h.elim
    | _ => rfl
  | list => exact .leaf rfl
  | map hkeys _ _ ih => exact .map (pairwise_comparable_of_text hkeys) ih

theorem copyItems_eq_map (xs : List Setting) : copyItems xs = xs.map copy := by
  induction xs with
  | nil => rfl
  | cons x xs ih => rw [copyItems, ih, List.map_cons]

theorem copyEntries_eq_map (es : List (SettingKey × Setting)) : copyEntries es
    = (es.filter fun e ↦ e.1.text?.isSome).map fun e ↦ (e.1, copy e.2) := by
  induction es with
  | nil => rfl
  | cons e es ih =>
    obtain ⟨k, v⟩ := e
    cases k with
    | text s => exact congrArg ((.text s, copy v) :: ·) ih
    | _ => exact ih

theorem IsScalar.copy_eq {v : Setting} (h : v.IsScalar) : copy v = v := by
  cases v with
  | list xs => exact h.elim
  | map es => exact h.elim
  | _ => rfl

/-- A copy leaves out nothing where all keys are texts. -/
theorem Textual.copy_eq {v : Setting} (h : Textual v) : copy v = v := by
  induction h with
  | scalar h => exact h.copy_eq
  | list h ih => rw [copy, copyItems_eq_map, List.map_congr_left ih, List.map_id']
  | @map es hkeys hone h ih =>
    have hsame : ∀ e ∈ es, (e.1, copy e.2) = e := fun e he ↦ Prod.ext rfl (ih e he)
    have htext : ∀ e ∈ es, e.1.text?.isSome = true := fun e he ↦ by
      obtain ⟨s, hs⟩ := hkeys e he
      rw [hs]
      rfl
    rw [copy, copyEntries_eq_map, List.filter_eq_self.mpr htext, List.map_congr_left hsame,
      List.map_id']

theorem textual_insertEach {l : List (SettingKey × Except KeyOrderError Setting)}
    {target out : List (SettingKey × Setting)} (h : insertEach l target = .ok out)
    (htarget : Textual (.map target)) (hkeys : ∀ e ∈ l, ∃ s, e.1 = .text s)
    (hvalues : ∀ e ∈ l, ∀ r, e.2 = .ok r → Textual r) : Textual (.map out) := by
  induction l generalizing target with
  | nil =>
    obtain rfl := Except.ok.inj h
    exact htarget
  | cons e l ih =>
    obtain ⟨hk, hkeys⟩ := List.forall_mem_cons.mp hkeys
    obtain ⟨he, hvalues⟩ := List.forall_mem_cons.mp hvalues
    obtain ⟨v, hv, h⟩ := bind_eq_ok.mp h
    exact ih h (htarget.insert hk (he v hv)) hkeys hvalues

theorem textual_entriesOf {existing : Option Setting} (h : ∀ v ∈ existing, Textual v) :
    Textual (.map (entriesOf existing)) := by
  cases existing with
  | none => exact textual_map_nil
  | some v =>
    cases v with
    | map es => exact h _ rfl
    | _ => exact textual_map_nil

mutual

/-- Overlaying keeps the keys texts. -/
theorem textual_overlay {existing : Option Setting} (hexisting : ∀ v ∈ existing, Textual v) :
    (v : Setting) → Textual v → ∀ {r}, overlay existing v = .ok r → Textual r
  | .map es, hv, r, h => by
    obtain ⟨merged, out, hmerged, hout, rfl⟩ := overlay_map_eq_ok h
    obtain ⟨hkeys, -, hvalues⟩ := textual_map_iff.mp hv
    have hperm := KeyOrder.sort_perm hmerged
    have htarget := textual_entriesOf hexisting
    refine textual_insertEach hout htarget (fun e he ↦ ?_) fun e he r hr ↦ ?_
    · have hkey := List.mem_map_of_mem (f := Prod.fst) (hperm.mem_iff.mp he)
      rw [← KeyOrder.keys, keys_overlayEntries] at hkey
      obtain ⟨e', he', heq⟩ := List.mem_map.mp hkey
      exact heq ▸ hkeys e' he'
    · exact textual_overlayEntries htarget es hvalues e (hperm.mem_iff.mp he) hr
  | .null, hv, r, h | .bool _, hv, r, h | .int _, hv, r, h | .float _, hv, r, h | .str _, hv, r, h
  | .date _, hv, r, h | .dateTime _, hv, r, h | .time _, hv, r, h | .bytes _, hv, r, h
  | .list _, hv, r, h | .set _, hv, r, h => by
    obtain rfl := Except.ok.inj h
    rwa [hv.copy_eq]

theorem textual_overlayEntries {target : List (SettingKey × Setting)}
    (htarget : Textual (.map target)) : (es : List (SettingKey × Setting)) →
      (∀ e ∈ es, Textual e.2) → ∀ e ∈ overlayEntries target es, ∀ {r}, e.2 = .ok r → Textual r
  | [], _ => List.forall_mem_nil _
  | (k, v) :: es, h => by
    obtain ⟨hv, hes⟩ := List.forall_mem_cons.mp h
    rw [overlayEntries, List.forall_mem_cons]
    refine ⟨fun hr ↦ ?_, textual_overlayEntries htarget es hes⟩
    exact textual_overlay (fun w hw ↦ htarget.of_find? hw) v hv hr

end

/-! ## Mappings path by path -/

/-- What a value is, seen from outside: of a mapping only that it is one. -/
def face : Setting → Setting
  | map _ => map []
  | v => v

/-- What is seen at a path of a value that may be missing. -/
def faceAt (v : Option Setting) (path : List String) : Option Setting :=
  (v.bind (atPath? path)).map face

/-- Equal as mappings: at each path, both have no value, both have a mapping, or both have the same other
value. -/
def SameMapping (v w : Setting) : Prop := ∀ path, faceAt (some v) path = faceAt (some w) path

theorem faceAt_nil (v : Option Setting) : faceAt v [] = v.map face := by
  cases v <;> rfl

theorem faceAt_cons (v : Option Setting) (key : String) (path : List String) :
    faceAt v (key :: path) = faceAt (v.bind (field? key)) path := by
  cases v with
  | none => rfl
  | some v => rfl

theorem faceAt_none (path : List String) : faceAt none path = none := rfl

theorem face_eq_self {v : Setting} (h : v.entries? = none) : v.face = v := by
  cases v with
  | map es => cases h
  | _ => rfl

theorem eq_of_face_eq {v w : Setting} (h : v.face = w) (hw : w.entries? = none) : v = w := by
  cases v with
  | map es =>
    obtain rfl : map [] = w := h
    cases hw
  | _ => exact h

theorem eq_map_of_entries? {v : Setting} {es : List (SettingKey × Setting)} (h : v.entries? = some es) :
    v = map es := by
  cases v with
  | map es' => exact congrArg map (Option.some.inj h)
  | _ => cases h

theorem field?_eq_none {v : Setting} (h : v.entries? = none) (key : String) : v.field? key = none := by
  cases v with
  | map es => cases h
  | _ => rfl

/-! ## Overlays path by path -/

/-- What is seen at a path when a change is laid over an existing value. -/
def laidAt : List String → Option Setting → Option Setting → Option Setting
  | path, existing, none => faceAt existing path
  | [], _, some change => some change.face
  | key :: path, existing, some (map es) =>
    laidAt path (existing.bind (field? key)) (find? (.text key) es)
  | _ :: _, _, some _ => none

/-- What is seen at a path below a value that is no mapping is nothing. -/
theorem laidAt_cons {existing : Option Setting} {change : Setting} (key : String) (path : List String)
    (h : change.entries? = none) : laidAt (key :: path) existing (some change) = none := by
  cases change with
  | map es => cases h
  | _ => rfl

theorem laidAt_none (path : List String) (existing : Option Setting) :
    laidAt path existing none = faceAt existing path := by
  cases path <;> rfl

/-- Overlays show what `laidAt` says. -/
theorem faceAt_of_overlaid (path : List String) : ∀ {existing change result : Option Setting},
    (∀ v, change = some v → Textual v) → Overlaid existing change result →
    faceAt result path = laidAt path existing change := by
  induction path with
  | nil =>
    intro existing change result hchange h
    cases change with
    | none => rw [show result = existing from h, laidAt_none]
    | some change =>
      obtain ⟨r, hr, rfl⟩ := h
      rw [faceAt_nil, Option.map_some, laidAt]
      cases change with
      | map es =>
        obtain ⟨out, rfl⟩ := exists_map_of_overlay hr
        rfl
      | _ =>
        obtain rfl := Except.ok.inj hr
        rw [(hchange _ rfl).copy_eq]
  | cons key path ih =>
    intro existing change result hchange h
    rw [faceAt_cons]
    cases change with
    | none => rw [show result = existing from h, laidAt_none, faceAt_cons]
    | some change =>
      obtain ⟨r, hr, rfl⟩ := h
      cases change with
      | map es =>
        have htextual := hchange _ rfl
        exact ih (fun v hv ↦ htextual.of_find? hv)
          (overlaid_field? hr (textual_map_iff.mp htextual).2.1 key)
      | _ =>
        obtain rfl := Except.ok.inj hr
        rw [(hchange _ rfl).copy_eq]
        rfl

/-! ## Laws -/

/-- What is seen below a mapping is what is laid over the value below. -/
theorem laidAt_map (key : String) (path : List String) (existing : Option Setting)
    (es : List (SettingKey × Setting)) : laidAt (key :: path) existing (some (map es))
      = laidAt path (existing.bind (field? key)) (find? (.text key) es) := rfl

/-- A mapping without entries changes nothing of a mapping. -/
theorem laidAt_empty (path : List String) (es : List (SettingKey × Setting)) :
    laidAt path (some (map es)) (some (map [])) = faceAt (some (map es)) path := by
  cases path with
  | nil => rfl
  | cons key path => rw [laidAt_map, find?, laidAt_none, faceAt_cons]

/-- A change that was made is made no further. -/
theorem laidAt_idem (path : List String) : ∀ {existing change result : Option Setting},
    (∀ p, faceAt result p = laidAt p existing change) →
    laidAt path result change = faceAt result path := by
  induction path with
  | nil =>
    intro existing change result h
    cases change with
    | none => rw [laidAt_none]
    | some change => exact (h []).symm
  | cons key path ih =>
    intro existing change result h
    cases change with
    | none => rw [laidAt_none]
    | some change =>
      cases change with
      | map es =>
        rw [laidAt_map, faceAt_cons]
        refine @ih (existing.bind (field? key)) _ _ fun p ↦ ?_
        rw [← faceAt_cons]
        exact h (key :: p)
      | _ => exact (h (key :: path)).symm

/-- The value has a mapping at the path. -/
def MapsAt (v : Option Setting) (path : List String) : Prop :=
  ∃ es, v.bind (atPath? path) = some (.map es)

/-- Where two values have mappings, the value between them has no other value. -/
def Joinable (a b c : Option Setting) : Prop :=
  ∀ path v, MapsAt a path → MapsAt c path → b.bind (atPath? path) = some v → v.entries?.isSome = true

theorem Joinable.below {a b c : Option Setting} (h : Joinable a b c) (key : String) :
    Joinable (a.bind (field? key)) (b.bind (field? key)) (c.bind (field? key)) := by
  have hstep : ∀ (v : Option Setting) (path : List String),
      (v.bind (field? key)).bind (atPath? path) = v.bind (atPath? (key :: path)) := by
    intro v path
    cases v <;> rfl
  intro path v ha hc hb
  rw [MapsAt, hstep] at ha hc
  rw [hstep] at hb
  exact h (key :: path) v ha hc hb

/-- A value that looks like another one is a mapping if that one is, and else it is that one. -/
theorem eq_of_faceAt_eq {v : Option Setting} {w : Setting} (h : faceAt v [] = some w.face) :
    (∃ es fs, w = map es ∧ v = some (map fs)) ∨ w.entries? = none ∧ v = some w := by
  rw [faceAt_nil] at h
  obtain ⟨u, rfl, hu⟩ := Option.map_eq_some_iff.mp h
  cases hw : w.entries? with
  | none => exact .inr ⟨rfl, congrArg some (eq_of_face_eq (hu.trans (face_eq_self hw)) hw)⟩
  | some es =>
    obtain rfl := eq_map_of_entries? hw
    cases u with
    | map fs => exact .inl ⟨es, fs, rfl, rfl⟩
    | _ => cases hu

/-- Only what is seen of the change matters. -/
theorem laidAt_congr_right (path : List String) : ∀ {existing v w : Option Setting},
    (∀ p, faceAt v p = faceAt w p) → laidAt path existing v = laidAt path existing w := by
  induction path with
  | nil =>
    intro existing v w h
    have hface := h []
    cases w with
    | none =>
      rw [faceAt_nil, faceAt_none, Option.map_eq_none_iff] at hface
      rw [hface]
    | some w =>
      rcases eq_of_faceAt_eq hface with ⟨es, fs, rfl, rfl⟩ | ⟨-, rfl⟩
      · rfl
      · rfl
  | cons key path ih =>
    intro existing v w h
    have hface := h []
    cases w with
    | none =>
      rw [faceAt_nil, faceAt_none, Option.map_eq_none_iff] at hface
      rw [hface]
    | some w =>
      rcases eq_of_faceAt_eq hface with ⟨es, fs, rfl, rfl⟩ | ⟨-, rfl⟩
      · exact ih fun p ↦ h (key :: p)
      · rfl

/-- Below a key, an overlay shows what the overlay of the values below shows, unless it cuts off a mapping. -/
theorem faceAt_below {a b ab : Option Setting} (h : ∀ p, faceAt ab p = laidAt p a b)
    (hcut : ∀ es v, a = some (map es) → b = some v → v.entries?.isSome = true) (key : String)
    (path : List String) : faceAt (ab.bind (field? key)) path
      = laidAt path (a.bind (field? key)) (b.bind (field? key)) := by
  rw [← faceAt_cons, h]
  cases b with
  | none => rw [laidAt_none, Option.bind_none, laidAt_none, faceAt_cons]
  | some b =>
    cases hb : b.entries? with
    | some es =>
      obtain rfl := eq_map_of_entries? hb
      rfl
    | none =>
      have ha : a.bind (field? key) = none := by
        cases a with
        | none => rfl
        | some a =>
          cases a with
          | map es => exact absurd (hcut es b rfl rfl) (by rw [hb]; exact Bool.false_ne_true)
          | _ => rfl
      rw [laidAt_cons key path hb, Option.bind_some, field?_eq_none hb, laidAt_none, ha, faceAt_none]

/-- **Three layers can be grouped either way**, as long as the middle one does not cut off a mapping that the
outer ones share. -/
theorem laidAt_assoc (path : List String) : ∀ {a b c ab bc : Option Setting}, Joinable a b c →
    (∀ p, faceAt ab p = laidAt p a b) → (∀ p, faceAt bc p = laidAt p b c) →
    laidAt path ab c = laidAt path a bc := by
  induction path with
  | nil =>
    intro a b c ab bc _ hab hbc
    cases c with
    | none =>
      rw [laidAt_none, hab]
      exact laidAt_congr_right [] fun p ↦ by rw [hbc, laidAt_none]
    | some c =>
      rcases eq_of_faceAt_eq (hbc []) with ⟨es, fs, rfl, rfl⟩ | ⟨-, rfl⟩
      · rfl
      · rfl
  | cons key path ih =>
    intro a b c ab bc hjoin hab hbc
    cases c with
    | none =>
      rw [laidAt_none, hab]
      exact laidAt_congr_right (key :: path) fun p ↦ by rw [hbc, laidAt_none]
    | some c =>
      rcases eq_of_faceAt_eq (hbc []) with ⟨es, fs, rfl, rfl⟩ | ⟨hleaf, rfl⟩
      · rw [laidAt_map, laidAt_map]
        have hcut : ∀ gs v, a = some (map gs) → b = some v → v.entries?.isSome = true := by
          rintro gs v rfl rfl
          exact hjoin [] v ⟨gs, rfl⟩ ⟨es, rfl⟩ rfl
        exact ih (hjoin.below key) (faceAt_below hab hcut key) fun p ↦ hbc (key :: p)
      · rw [laidAt_cons key path hleaf, laidAt_cons key path hleaf]

/-! ## Merging -/

section Merge

variable {a b : List (SettingKey × Setting)}

theorem Textual.perm {es : List (SettingKey × Setting)} (h : Textual (.map a)) (hperm : es.Perm a) :
    Textual (.map es) := by
  obtain ⟨hkeys, hone, hvalues⟩ := textual_map_iff.mp h
  exact .map (fun e he ↦ hkeys e (hperm.mem_iff.mp he)) (hone.perm hperm) fun e he ↦
    hvalues e (hperm.mem_iff.mp he)

theorem Textual.find?_copy (h : Textual (.map a)) (key : SettingKey) :
    (find? key a).map copy = find? key a := by
  cases hv : find? key a with
  | none => rfl
  | some v => rw [Option.map_some, (h.of_find? hv).copy_eq]

/-- **Merging mappings with text keys comes to a mapping with text keys.** At each key it has what overlaying the
values there leaves. -/
theorem exists_merge (ha : Textual (.map a)) (hb : Textual (.map b)) :
    ∃ ab, merge a b = .ok (.map ab) ∧ Textual (.map ab) ∧
      ∀ key, Overlaid (find? (.text key) a) (find? (.text key) b) (find? (.text key) ab) := by
  obtain ⟨hkeys, hone, -⟩ := textual_map_iff.mp ha
  obtain ⟨m, hm⟩ := (merge_isOk_iff (pairwise_comparable_of_text hkeys)).mpr hb.ordered
  obtain ⟨sorted, hsorted, hlaidlay⟩ := merge_eq_ok hm
  have hsame : sorted.map (fun e ↦ (e.1, copy e.2)) = sorted := by
    have hentry : ∀ e ∈ sorted, (e.1, copy e.2) = e := fun e he ↦
      Prod.ext rfl ((textual_map_iff.mp (ha.perm hsorted)).2.2 e he).copy_eq
    rw [List.map_congr_left hentry, List.map_id']
  rw [hsame] at hlaidlay
  obtain ⟨ab, rfl⟩ := exists_map_of_overlay hlaidlay
  refine ⟨ab, hm, textual_overlay (fun v hv ↦ ?_) _ hb hlaidlay, fun key ↦ ?_⟩
  · obtain rfl := Option.some.inj hv
    exact ha.perm hsorted
  · have hplace := overlaid_merge hm hone (textual_map_iff.mp hb).2.1 key
    rwa [ha.find?_copy] at hplace

theorem faceAt_merged {ab : List (SettingKey × Setting)} (hb : Textual (.map b))
    (h : ∀ key, Overlaid (find? (.text key) a) (find? (.text key) b) (find? (.text key) ab))
    (path : List String) :
    faceAt (some (.map ab)) path = laidAt path (some (.map a)) (some (.map b)) := by
  cases path with
  | nil => rfl
  | cons key path => exact faceAt_of_overlaid path (fun v hv ↦ hb.of_find? hv) (h key)

/-- What the overlay has that is no mapping is what the merged mapping has. -/
theorem laidAt_eq_of_leaf (path : List String) : ∀ {existing change : Option Setting} {v : Setting},
    change.bind (atPath? path) = some v → v.entries? = none → laidAt path existing change = some v := by
  induction path with
  | nil =>
    intro existing change v h hv
    obtain ⟨w, rfl, hw⟩ := Option.bind_eq_some_iff.mp h
    obtain rfl : w = v := Option.some.inj hw
    rw [laidAt, face_eq_self hv]
  | cons key path ih =>
    intro existing change v h hv
    obtain ⟨w, rfl, hw⟩ := Option.bind_eq_some_iff.mp h
    cases w with
    | map es => exact ih hw hv
    | _ => cases hw

/-- Where the overlay has nothing and cuts off nothing, what stood there stays. -/
theorem atPath?_of_overlaid (path : List String) : ∀ {existing change result : Option Setting},
    (∀ v, change = some v → Textual v) → Overlaid existing change result →
    change.bind (atPath? path) = none →
    (∀ q v, q <+: path → change.bind (atPath? q) = some v → v.entries?.isSome = true) →
    result.bind (atPath? path) = existing.bind (atPath? path) := by
  induction path with
  | nil =>
    intro existing change result _ h hnone _
    cases change with
    | none => rw [show result = existing from h]
    | some change => cases hnone
  | cons key path ih =>
    intro existing change result hchange h hnone hcut
    cases change with
    | none => rw [show result = existing from h]
    | some change =>
      have hmap := hcut [] change List.nil_prefix rfl
      cases change with
      | map es =>
        obtain ⟨r, hr, rfl⟩ := h
        have htextual := hchange _ rfl
        have hbelow := ih (fun v hv ↦ htextual.of_find? hv)
          (overlaid_field? hr (textual_map_iff.mp htextual).2.1 key) hnone fun q v hq hv ↦
            hcut (key :: q) v (List.cons_prefix_cons.mpr ⟨rfl, hq⟩) hv
        cases existing with
        | none => exact hbelow
        | some v => exact hbelow
      | _ => cases hmap

end Merge

end FeatureAtlas.Setting
