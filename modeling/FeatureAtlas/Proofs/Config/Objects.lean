import FeatureAtlas.Proofs.Config.Copies

/-!
# Merging objects is merging values

Merging changes the copy of the base alone, and what it sets there is copied as well. So both arguments stay what
they were, whatever objects they share, while the copy becomes the merged value. The induction is on the depth of
the overlay: what merging does with a mapping is a property of the action (`MergesInto`), one key needs it of the
mappings below, and the keys of a mapping follow one another.
-/

namespace FeatureAtlas.Store

open Setting (Textual find? OneEach overlay insertEach)

/-! ## Mappings in order -/

section Sorting

variable {α β γ : Type}

/-- Where all keys are texts, the order of the entries is that of their keys, whatever their values. -/
theorem exists_sort {es : List (SettingKey × γ)} (h : ∀ e ∈ es, ∃ s, e.1 = .text s) :
    ∃ sorted : List (SettingKey × γ), sorted.Perm es ∧ ∀ {δ : Type} (f : SettingKey × γ → δ),
      KeyOrder.sort (es.map fun e ↦ (e.1, f e)) = .ok (sorted.map fun e ↦ (e.1, f e)) := by
  have hfields : ∃ fields : List (String × γ), es = fields.map fun e ↦ (.text e.1, e.2) := by
    induction es with
    | nil => exact ⟨[], rfl⟩
    | cons e es ih =>
      obtain ⟨⟨s, hs⟩, hes⟩ := List.forall_mem_cons.mp h
      obtain ⟨fields, rfl⟩ := ih hes
      exact ⟨(s, e.2) :: fields, by rw [List.map_cons, ← hs]⟩
  obtain ⟨fields, rfl⟩ := hfields
  refine ⟨(Text.sortKeys fields).map fun e ↦ (.text e.1, e.2), (Table.sortKeys_perm fields).map _,
    fun f ↦ ?_⟩
  have htext : KeyOrder.textEntries?
      ((fields.map fun e ↦ (SettingKey.text e.1, e.2)).map fun e ↦ (e.1, f e))
        = some (fields.map fun e ↦ (e.1, f (.text e.1, e.2))) := by
    rw [Setting.textEntries?_eq_some, List.map_map, List.map_map]
    rfl
  have hsorted : Text.sortKeys (fields.map fun e ↦ (e.1, f (.text e.1, e.2)))
      = (Text.sortKeys fields).map fun e ↦ (e.1, f (.text e.1, e.2)) :=
    (List.map_mergeSort (f := fun e : String × γ ↦ (e.1, f (.text e.1, e.2)))
      fun _ _ _ _ ↦ rfl).symm
  rw [KeyOrder.sort, htext]
  dsimp only
  rw [hsorted, List.map_map, List.map_map]
  rfl

/-- Entries that stand for each other are sorted alike. -/
theorem exists_sort_pairs {pairs : List ((SettingKey × α) × (SettingKey × β))}
    (hkey : ∀ p ∈ pairs, p.1.1 = p.2.1) (htext : ∀ p ∈ pairs, ∃ s, p.2.1 = .text s) :
    ∃ sorted : List ((SettingKey × α) × (SettingKey × β)), sorted.Perm pairs ∧
      KeyOrder.sort (pairs.map Prod.fst) = .ok (sorted.map Prod.fst) ∧
      ∀ {δ : Type} (f : SettingKey × β → δ),
        KeyOrder.sort ((pairs.map Prod.snd).map fun e ↦ (e.1, f e))
          = .ok ((sorted.map Prod.snd).map fun e ↦ (e.1, f e)) := by
  have htexts : ∀ e ∈ pairs.map fun p ↦ (p.2.1, p), ∃ s, e.1 = .text s := by
    intro e he
    obtain ⟨p, hp, rfl⟩ := List.mem_map.mp he
    exact htext p hp
  obtain ⟨sorted, hperm, hsort⟩ := exists_sort htexts
  have hkey' : ∀ p ∈ sorted, p.1 = p.2.1.1 ∧ p.1 = p.2.2.1 := by
    intro e he
    obtain ⟨p, hp, rfl⟩ := List.mem_map.mp (hperm.mem_iff.mp he)
    exact ⟨(hkey p hp).symm, rfl⟩
  refine ⟨sorted.map Prod.snd, ?_, ?_, fun f ↦ ?_⟩
  · have hpairs := hperm.map Prod.snd
    rwa [List.map_map, Function.comp_def, List.map_id'] at hpairs
  · have hleft := hsort fun e ↦ e.2.1.2
    have hbefore : ∀ p ∈ pairs, (p.2.1, p.1.2) = p.1 := fun p hp ↦ Prod.ext (hkey p hp).symm rfl
    have hafter : ∀ e ∈ sorted, (e.1, e.2.1.2) = e.2.1 := fun e he ↦ Prod.ext (hkey' e he).1 rfl
    rw [List.map_map, Function.comp_def, List.map_congr_left hbefore,
      List.map_congr_left hafter] at hleft
    rw [hleft, List.map_map]
    rfl
  · have hright := hsort fun e ↦ f e.2.2
    have hafter : ∀ e ∈ sorted, (e.1, f e.2.2) = (e.2.2.1, f e.2.2) := fun e he ↦
      Prod.ext (hkey' e he).2 rfl
    rw [List.map_map, List.map_congr_left hafter] at hright
    rw [List.map_map, List.map_map, List.map_map]
    exact hright

end Sorting

/-! ## Setting a key -/

section AtKey

variable {α β : Type} {R : α → β → List Nat → Prop} {es : List (SettingKey × α)}
  {vs : List (SettingKey × β)} {own : List Nat}

/-- The entry at a key, apart from the others: both sides have it or lack it, and once it is set on both sides,
the entries stand for each other again, if the others still do. -/
theorem Each.at_key (h : Each (Entry R) es vs own) (key : SettingKey) :
    ∃ before here after, own = before ++ here ++ after ∧
      (find? key vs = none → find? key es = none) ∧
      (∀ v, find? key vs = some v → ∃ slot, find? key es = some slot ∧ R slot v here) ∧
      ∀ {Q : α → β → List Nat → Prop} (slot : α) {v : β} {o : List Nat},
        (∀ slot v o, o ⊆ before ++ after → R slot v o → Q slot v o) → Q slot v o →
          Each (Entry Q) (Setting.insert key slot es) (Setting.insert key v vs) (before ++ o ++ after) := by
  induction h with
  | nil =>
    refine ⟨[], [], [], rfl, fun _ ↦ rfl, nofun, fun _ _ _ _ hset ↦ ?_⟩
    exact .cons (.mk key hset) .nil
  | @cons e f es vs here rest h hrest ih =>
    cases h with
    | @mk k a b _ h =>
      cases hk : k.same key with
      | true =>
        refine ⟨[], here, rest, rfl, fun hnone ↦ ?_, fun v hv ↦ ?_, fun _ _ _ hothers hset ↦ ?_⟩
        · rw [find?, if_pos hk] at hnone
          cases hnone
        · rw [find?, if_pos hk] at hv
          obtain rfl := Option.some.inj hv
          exact ⟨a, by rw [find?, if_pos hk], h⟩
        · rw [Setting.insert, if_pos hk, Setting.insert, if_pos hk]
          exact .cons (.mk k hset) (hrest.imp fun _ _ _ ho hentry ↦ hentry.imp fun _ _ ↦
            hothers _ _ _ ho.subset)
      | false =>
        have hne : ¬k.same key = true := Bool.eq_false_iff.mp hk
        obtain ⟨before, at', after, rfl, hnone, hsome, hset⟩ := ih
        refine ⟨here ++ before, at', after, ?_, fun hv ↦ ?_, fun v hv ↦ ?_,
          fun slot _ _ hothers hnew ↦ ?_⟩
        · rw [List.append_assoc, List.append_assoc, List.append_assoc]
        · rw [find?, if_neg hne] at hv ⊢
          exact hnone hv
        · rw [find?, if_neg hne] at hv
          obtain ⟨slot, hslot, hread⟩ := hsome v hv
          exact ⟨slot, by rw [find?, if_neg hne, hslot], hread⟩
        · rw [Setting.insert, if_neg hne, Setting.insert, if_neg hne, List.append_assoc, List.append_assoc]
          refine .cons (.mk k (hothers _ _ _ ?_ h)) ?_
          · rw [List.append_assoc]
            exact List.subset_append_left _ _
          · rw [← List.append_assoc]
            refine hset slot (fun slot v o ho ↦ hothers slot v o ?_) hnew
            rw [List.append_assoc]
            exact List.subset_append_of_subset_right _ ho

end AtKey

/-! ## Merging in place -/

section Merge

variable {s s₁ : Store} {own own₁ before here here' after : List Nat}

theorem Changed.mono (h : Changed s s₁ [] own₁) (own : List Nat) : Changed s s₁ own own₁ where
  nodup := h.nodup
  mine := fun a ha ↦ .inr ((h.mine a ha).resolve_left List.not_mem_nil)
  frame := fun a ha _ ↦ h.frame a ha List.not_mem_nil
  length_le := h.length_le

theorem Changed.set (h : Changed s s₁ own own₁) {address : Nat} (hmem : address ∈ own) (c : Cell) :
    Changed s (s₁.set address c) own own₁ where
  nodup := h.nodup
  mine := h.mine
  frame := fun a ha hown ↦ by
    have hne : address ≠ a := by
      rintro rfl
      exact hown hmem
    rw [List.getElem?_set_ne hne, h.frame a ha hown]
  length_le := by
    rw [List.length_set]
    exact h.length_le

theorem not_mem_here (h : (before ++ here ++ after).Nodup) {a : Nat} (ha : a ∈ before ++ after) :
    a ∉ here := by
  obtain ⟨hfront, -, hend⟩ := List.nodup_append.mp h
  intro hmem
  rcases List.mem_append.mp ha with ha | ha
  · exact (List.nodup_append.mp hfront).2.2 a ha a hmem rfl
  · exact hend a (List.mem_append_right _ hmem) a ha rfl

/-- What an action does with a part of what is owned. -/
theorem Changed.within (h : Changed s s₁ here here') (hown : (before ++ here ++ after).Nodup)
    (hlt : ∀ a ∈ before ++ here ++ after, a < s.length) :
    Changed s s₁ (before ++ here ++ after) (before ++ here' ++ after) where
  nodup := by
    obtain ⟨hfront, hafter, hend⟩ := List.nodup_append.mp hown
    obtain ⟨hbefore, -, -⟩ := List.nodup_append.mp hfront
    have hnew : ∀ a ∈ before ++ after, a ∉ here' := by
      intro a ha
      have hall : a ∈ before ++ here ++ after := by
        rcases List.mem_append.mp ha with ha | ha
        · exact List.mem_append_left _ (List.mem_append_left _ ha)
        · exact List.mem_append_right _ ha
      exact h.not_mem (hlt a hall) (not_mem_here hown ha)
    refine List.nodup_append.mpr ⟨List.nodup_append.mpr ⟨hbefore, h.nodup, ?_⟩, hafter, ?_⟩
    · rintro a ha b hb rfl
      exact hnew a (List.mem_append_left _ ha) hb
    · rintro a ha b hb rfl
      rcases List.mem_append.mp ha with ha | ha
      · exact hend a (List.mem_append_left _ ha) a hb rfl
      · exact hnew a (List.mem_append_right _ hb) ha
  mine := fun a ha ↦ by
    rcases List.mem_append.mp ha with ha | ha
    · rcases List.mem_append.mp ha with ha | ha
      · exact .inl (List.mem_append_left _ (List.mem_append_left _ ha))
      · exact (h.mine a ha).imp_left fun hmem ↦
          List.mem_append_left _ (List.mem_append_right _ hmem)
    · exact .inl (List.mem_append_right _ ha)
  frame := fun a ha hnot ↦ h.frame a ha fun hmem ↦
    hnot (List.mem_append_left _ (List.mem_append_right _ hmem))
  length_le := h.length_le

/-- Setting a key of an owned mapping to what was made. -/
theorem run_assign_made {target : Nat} {cur : List (SettingKey × Setting)} {slot : Slot} {r : Setting}
    (htarget : Reads s (.object target) (.map cur) own) (hown : own.Nodup)
    (hchanged : Changed s s₁ [] own₁) (hread : Reads s₁ slot r own₁) (key : SettingKey) :
    ∃ s' own', (assign key slot target).run s₁ = .ok ((), s') ∧ Changed s s' own own' ∧
      Reads s' (.object target) (.map (Setting.insert key r cur)) own' := by
  have hlt := htarget.lt
  cases htarget with
  | @map _ es _ rest hcell hentries =>
    obtain ⟨before, here, after, rfl, -, -, hset⟩ := hentries.at_key key
    have htarget : target < s.length := hlt target List.mem_cons_self
    have hcell₁ : s₁[target]? = some (.map es) :=
      (hchanged.frame target htarget List.not_mem_nil).trans hcell
    have hothers : ∀ a, a ≠ target →
        (s₁.set target (.map (Setting.insert key slot es)))[a]? = s₁[a]? := fun a hne ↦
      List.getElem?_set_ne hne.symm
    refine ⟨s₁.set target (.map (Setting.insert key slot es)), target :: (before ++ own₁ ++ after),
      run_assign hcell₁, ?_, .map ?_ (hset slot (fun a b o ho hab ↦ ?_) ?_)⟩
    · have hwithin : Changed s s₁ (target :: before ++ here ++ after)
          (target :: before ++ own₁ ++ after) := (hchanged.mono here).within hown hlt
      exact hwithin.set List.mem_cons_self _
    · exact List.getElem?_set_self (Nat.lt_of_lt_of_le htarget hchanged.length_le)
    · -- the other entries are not in the mapping's own object
      refine hab.frame fun n hn ↦ ?_
      have hne : n ≠ target := by
        rintro rfl
        refine (List.nodup_cons.mp hown).1 ?_
        rcases List.mem_append.mp (ho hn) with hn | hn
        · exact List.mem_append_left _ (List.mem_append_left _ hn)
        · exact List.mem_append_right _ hn
      rw [hothers n hne, hchanged.frame n (hab.lt n hn) List.not_mem_nil]
    · refine hread.frame fun n hn ↦ hothers n fun heq ↦ ?_
      have hle := (hchanged.mine n hn).resolve_left List.not_mem_nil
      exact absurd htarget (Nat.not_lt.mpr (heq ▸ hle))

theorem run_mapping?_of_entries?_eq_none {slot : Option Slot} {v : Option Setting}
    (h : ∀ b, slot = some b → ∃ w o, v = some w ∧ Reads s b w o)
    (hv : ∀ w, v = some w → w.entries? = none) : (mapping? slot).run s = .ok (none, s) := by
  cases slot with
  | none => rfl
  | some b =>
    obtain ⟨w, o, rfl, hread⟩ := h b rfl
    cases hread with
    | value h => rfl
    | list hcell _ =>
      rw [mapping?, run_bind (run_cell hcell)]
      rfl
    | map _ _ => cases hv _ rfl

/-- What an owned mapping has at a key is what its value has there. -/
theorem exists_of_find? {target : Nat} {cur : List (SettingKey × Setting)} {tes : List (SettingKey × Slot)}
    (htarget : Reads s (.object target) (.map cur) own) (hcell : s[target]? = some (.map tes))
    (key : SettingKey) (slot : Slot) (hslot : find? key tes = some slot) :
    ∃ w o, find? key cur = some w ∧ Reads s slot w o := by
  cases htarget with
  | map hcell' hentries =>
    obtain rfl := Cell.map.inj (Option.some.inj (hcell'.symm.trans hcell))
    obtain ⟨before, here, after, -, hnone, hsome, -⟩ := hentries.at_key key
    cases hcur : find? key cur with
    | none =>
      rw [hnone hcur] at hslot
      cases hslot
    | some w =>
      obtain ⟨slot', hslot', hread⟩ := hsome w hcur
      obtain rfl := Option.some.inj (hslot.symm.trans hslot')
      exact ⟨w, here, rfl, hread⟩

theorem insert_of_find? {α : Type} {key : SettingKey} {a : α} {es : List (SettingKey × α)}
    (h : find? key es = some a) : Setting.insert key a es = es := by
  induction es with
  | nil => cases h
  | cons e es ih =>
    obtain ⟨k, b⟩ := e
    rw [find?] at h
    rw [Setting.insert]
    split at h
    · next hk =>
      obtain rfl := Option.some.inj h
      rw [if_pos hk]
    · next hk => rw [if_neg hk, ih h]

/-- The action turns an owned mapping into another one; it changes owned objects alone, and makes new ones. -/
def TurnsInto (s : Store) (own : List Nat) (target : Nat) (vs : List (SettingKey × Setting))
    (action : Action Unit) : Prop :=
  ∃ s' own', action.run s = .ok ((), s') ∧ Changed s s' own own' ∧
    Reads s' (.object target) (.map vs) own'

/-- The action merges a mapping into another one that is owned, as `overlay` does, if the first one has at most so
many objects and shares none with the second one. -/
def MergesInto (inner : Nat → Nat → Action Unit) (depth : Nat) : Prop :=
  ∀ {s : Store} {target changes : Nat} {cur vs out : List (SettingKey × Setting)} {own o : List Nat},
    Reads s (.object target) (.map cur) own → own.Nodup →
    Reads s (.object changes) (.map vs) o → o.length ≤ depth → (∀ a ∈ o, a ∉ own) →
    Textual (.map vs) → overlay (some (.map cur)) (.map vs) = .ok (.map out) →
    TurnsInto s own target out (inner target changes)

variable {inner : Nat → Nat → Action Unit} {depth target changes : Nat} {key : SettingKey}
  {cur : List (SettingKey × Setting)} {es : List (SettingKey × Slot)} {slot : Slot} {v r : Setting}
  {o : List Nat}

theorem overlay_congr {v w : Option Setting} (h : Setting.entriesOf v = Setting.entriesOf w)
    (vs : List (SettingKey × Setting)) : overlay v (.map vs) = overlay w (.map vs) := by
  rw [overlay, overlay, h]

/-- An owned mapping has the mapping of its value at a key. What turns that one into another one turns the whole. -/
theorem exists_below {tes : List (SettingKey × Slot)} {cur' : List (SettingKey × Setting)}
    (htarget : Reads s (.object target) (.map cur) own) (hown : own.Nodup)
    (hcell : s[target]? = some (.map tes)) (hcur : find? key cur = some (.map cur')) :
    ∃ existing here, (mapping? (find? key tes)).run s = .ok (some existing, s) ∧ here ⊆ own ∧ here.Nodup ∧
      Reads s (.object existing) (.map cur') here ∧ ∀ {out : List (SettingKey × Setting)}
        {action : Action Unit}, TurnsInto s here existing out action →
          TurnsInto s own target (Setting.insert key (.map out) cur) action := by
  have hlt := htarget.lt
  cases htarget with
  | @map _ tes' _ rest hcell' hentries =>
    obtain rfl : tes' = tes := Cell.map.inj (Option.some.inj (hcell'.symm.trans hcell))
    obtain ⟨before, here, after, rfl, -, hsome, hset⟩ := hentries.at_key key
    obtain ⟨slot, hslot, hexisting⟩ := hsome _ hcur
    cases hexisting with
    | value h => exact h.elim
    | @map existing ees _ here hcellE hentriesE =>
      have hnodup := (List.nodup_cons.mp hown).2
      have hhere : ∀ a ∈ existing :: here, a ∈ target :: (before ++ existing :: here ++ after) :=
        fun a ha ↦ List.mem_cons_of_mem _ (List.mem_append_left _ (List.mem_append_right _ ha))
      refine ⟨existing, existing :: here, ?_, hhere, ?_, .map hcellE hentriesE, ?_⟩
      · rw [hslot]
        exact run_mapping?_of_map hcellE
      · exact hnodup.sublist
          ((List.sublist_append_right before _).trans (List.sublist_append_left _ after))
      · rintro out action ⟨s', here', hrun, hchanged, hread'⟩
        have hentries' := hset (.object existing) (fun a b o' ho hab ↦ hab.frame fun n hn ↦
          hchanged.frame n (hab.lt n hn) (not_mem_here hnodup (ho hn))) hread'
        rw [insert_of_find? hslot] at hentries'
        refine ⟨s', target :: (before ++ here' ++ after), hrun, ?_, .map ?_ hentries'⟩
        · have hwithin : Changed s s' (target :: before ++ existing :: here ++ after)
              (target :: before ++ here' ++ after) := hchanged.within hown hlt
          exact hwithin
        · have hnot : target ∉ existing :: here := fun hmem ↦ (List.nodup_cons.mp hown).1
            (List.mem_append_left _ (List.mem_append_right _ hmem))
          exact (hchanged.frame target (hlt target List.mem_cons_self) hnot).trans hcell'

/-- What is owned at a key is merged into, if it is a mapping. -/
theorem run_inner_existing (hinner : MergesInto inner depth) {tes : List (SettingKey × Slot)}
    {cur' vs out : List (SettingKey × Setting)} {below : Nat}
    (htarget : Reads s (.object target) (.map cur) own) (hown : own.Nodup)
    (hcell : s[target]? = some (.map tes)) (hcur : find? key cur = some (.map cur'))
    (hread : Reads s (.object below) (.map vs) o) (hdepth : o.length ≤ depth)
    (hapart : ∀ a ∈ o, a ∉ own) (htextual : Textual (.map vs))
    (hr : overlay (some (.map cur')) (.map vs) = .ok (.map out)) :
    ∃ existing s' own', (mapping? (find? key tes)).run s = .ok (some existing, s) ∧
      (inner existing below).run s = .ok ((), s') ∧ Changed s s' own own' ∧
      Reads s' (.object target) (.map (Setting.insert key (.map out) cur)) own' := by
  obtain ⟨existing, here, hmapping, hsub, hnodup, hexisting, hturns⟩ := exists_below htarget hown hcell hcur
  obtain ⟨s', own', hrun, hchanged, hread'⟩ := hturns
    (hinner hexisting hnodup hread hdepth (fun a ha hmem ↦ hapart a ha (hsub hmem)) htextual hr)
  exact ⟨existing, s', own', hmapping, hrun, hchanged, hread'⟩

/-- A new mapping that is merged into is set at a key. -/
theorem run_inner_new (hinner : MergesInto inner depth) {vs out : List (SettingKey × Setting)}
    {below : Nat} (htarget : Reads s (.object target) (.map cur) own) (hown : own.Nodup)
    (hread : Reads s (.object below) (.map vs) o) (hdepth : o.length ≤ depth)
    (htextual : Textual (.map vs)) (hr : overlay (some (.map [])) (.map vs) = .ok (.map out))
    (key : SettingKey) :
    TurnsInto s own target (Setting.insert key (.map out) cur) (do
      let nested ← make (.map [])
      inner nested below
      assign key (.object nested) target) := by
  have hnew : Changed s (s ++ [.map []]) [] [s.length] :=
    (Changed.refl List.nodup_nil).make (List.forall_mem_nil _) _
  have hempty : Reads (s ++ [.map []]) (.object s.length) (.map []) [s.length] :=
    .map List.getElem?_concat_length .nil
  obtain ⟨hread₁, -⟩ := hnew.apart hread fun a _ ↦ List.not_mem_nil
  have hapart : ∀ a ∈ o, a ∉ [s.length] := fun a ha hmem ↦
    Nat.lt_irrefl _ (List.mem_singleton.mp hmem ▸ hread.lt a ha)
  obtain ⟨s₂, own₂, hrun, hchanged, hmade⟩ :=
    hinner hempty hnew.nodup hread₁ hdepth hapart htextual hr
  rw [TurnsInto, run_bind (run_make _), run_bind hrun]
  exact run_assign_made htarget hown (hnew.trans hchanged) hmade key

/-- A value that is no mapping is copied and set at its key. -/
theorem run_mergeKey_of_leaf (htarget : Reads s (.object target) (.map cur) own) (hown : own.Nodup)
    (hchanges : s[changes]? = some (.map es)) (hslot : find? key es = some slot)
    (hread : Reads s slot v o) (hdepth : o.length ≤ depth) (hv : v.entries? = none)
    (hr : overlay (find? key cur) v = .ok r) :
    TurnsInto s own target (Setting.insert key r cur) (mergeKey inner depth target changes key) := by
  have hnone : (mapping? (some slot)).run s = .ok (none, s) := by
    refine run_mapping?_of_entries?_eq_none (v := some v) (fun b hb ↦ ?_) fun w hw ↦ ?_
    · obtain rfl := Option.some.inj hb
      exact ⟨v, o, rfl, hread⟩
    · rwa [← Option.some.inj hw]
  have hcopy : r = v.copy := by
    cases v with
    | map es => cases hv
    | _ => exact (Except.ok.inj hr).symm
  obtain ⟨copied, s₁, own₁, hrun, hchanged, -, hcopied⟩ :=
    makes_copy depth hread hdepth s (List.prefix_refl s)
  rw [TurnsInto, mergeKey, run_bind (run_field hchanges hslot), run_bind hnone]
  dsimp only
  rw [run_bind hrun, hcopy]
  exact run_assign_made htarget hown hchanged hcopied key

/-- A mapping is merged into the one that is at its key, or into a new one. -/
theorem run_mergeKey_of_map (hinner : MergesInto inner depth) {vs : List (SettingKey × Setting)}
    (htarget : Reads s (.object target) (.map cur) own) (hown : own.Nodup)
    (hchanges : s[changes]? = some (.map es)) (hslot : find? key es = some slot)
    (hread : Reads s slot (.map vs) o) (hdepth : o.length ≤ depth) (hapart : ∀ a ∈ o, a ∉ own)
    (htextual : Textual (.map vs)) (hr : overlay (find? key cur) (.map vs) = .ok r) :
    TurnsInto s own target (Setting.insert key r cur) (mergeKey inner depth target changes key) := by
  obtain ⟨out, rfl⟩ := Setting.exists_map_of_overlay hr
  have hslots : ∃ below bes, slot = .object below ∧ s[below]? = some (.map bes) := by
    cases hread with
    | value h => exact h.elim
    | map hcell _ => exact ⟨_, _, rfl, hcell⟩
  obtain ⟨below, bes, rfl, hbelow⟩ := hslots
  have htes : ∃ tes, s[target]? = some (.map tes) := by
    cases htarget with
    | map hcell _ => exact ⟨_, hcell⟩
  obtain ⟨tes, hcell⟩ := htes
  rw [TurnsInto, mergeKey, run_bind (run_field hchanges hslot), run_bind (run_mapping?_of_map hbelow)]
  dsimp only
  rw [run_bind (run_entries hcell)]
  cases hcur : (find? key cur).bind Setting.entries? with
  | some cur' =>
    have hcur : find? key cur = some (.map cur') := by
      obtain ⟨w, hw, hentries⟩ := Option.bind_eq_some_iff.mp hcur
      rw [hw, Setting.eq_map_of_entries? hentries]
    rw [hcur] at hr
    obtain ⟨existing, s', own', hmapping, hrun, hchanged, hread'⟩ :=
      run_inner_existing hinner htarget hown hcell hcur hread hdepth hapart htextual hr
    rw [run_bind hmapping]
    exact ⟨s', own', hrun, hchanged, hread'⟩
  | none =>
    have hmapping : (mapping? (find? key tes)).run s = .ok (none, s) :=
      run_mapping?_of_entries?_eq_none (exists_of_find? htarget hcell key) fun w hw ↦ by
        rwa [hw] at hcur
    have hempty : overlay (some (.map [])) (.map vs) = .ok (.map out) := by
      rw [← hr]
      refine overlay_congr ?_ vs
      rw [Setting.entriesOf, Setting.entriesOf, hcur]
      rfl
    rw [run_bind hmapping]
    exact run_inner_new hinner htarget hown hread hdepth htextual hempty key

/-- One key of the overlay. -/
theorem run_mergeKey (hinner : MergesInto inner depth)
    (htarget : Reads s (.object target) (.map cur) own) (hown : own.Nodup)
    (hchanges : s[changes]? = some (.map es)) (hslot : find? key es = some slot)
    (hread : Reads s slot v o) (hdepth : o.length ≤ depth) (hapart : ∀ a ∈ o, a ∉ own)
    (htextual : Textual v) (hr : overlay (find? key cur) v = .ok r) :
    TurnsInto s own target (Setting.insert key r cur) (mergeKey inner depth target changes key) := by
  cases hv : v.entries? with
  | none => exact run_mergeKey_of_leaf htarget hown hchanges hslot hread hdepth hv hr
  | some vs =>
    obtain rfl := Setting.eq_map_of_entries? hv
    exact run_mergeKey_of_map hinner htarget hown hchanges hslot hread hdepth hapart htextual hr

/-- An entry of an overlay, as it is stored and as a value; it shares no object with what is owned. -/
structure Given (s : Store) (own : List Nat) (depth : Nat) (es : List (SettingKey × Slot))
    (p : (SettingKey × Slot) × (SettingKey × Setting)) : Prop where
  key : p.1.1 = p.2.1
  text : ∃ k, p.2.1 = .text k
  stored : find? p.1.1 es = some p.1.2
  textual : Textual p.2.2
  reads : ∃ o, Reads s p.1.2 p.2.2 o ∧ o.length ≤ depth ∧ ∀ a ∈ o, a ∉ own

theorem Given.changed {p : (SettingKey × Slot) × (SettingKey × Setting)} (h : Given s own depth es p)
    (hchanged : Changed s s₁ own own₁) : Given s₁ own₁ depth es p where
  key := h.key
  text := h.text
  stored := h.stored
  textual := h.textual
  reads := by
    obtain ⟨o, hread, hdepth, hapart⟩ := h.reads
    obtain ⟨hread₁, hapart₁⟩ := hchanged.apart hread hapart
    exact ⟨o, hread₁, hdepth, hapart₁⟩

/-- **One key after the other**, the overlay goes into the mapping. -/
theorem run_keys (hinner : MergesInto inner depth)
    {pairs : List ((SettingKey × Slot) × (SettingKey × Setting))} : ∀ {s : Store} {own : List Nat}
    {cur out : List (SettingKey × Setting)}, Reads s (.object target) (.map cur) own → own.Nodup →
    s[changes]? = some (.map es) → changes ∉ own → (∀ p ∈ pairs, Given s own depth es p) →
    OneEach (pairs.map Prod.snd) →
    insertEach ((pairs.map Prod.snd).map fun e ↦ (e.1, overlay (find? e.1 cur) e.2)) cur = .ok out →
    TurnsInto s own target out
      ((pairs.map Prod.fst).forM fun e ↦ mergeKey inner depth target changes e.1) := by
  induction pairs with
  | nil =>
    intro s own cur out htarget hown _ _ _ _ hout
    obtain rfl := Except.ok.inj hout
    exact ⟨s, own, rfl, .refl hown, htarget⟩
  | cons p pairs ih =>
    intro s own cur out htarget hown hchanges hnot hgiven hone hout
    obtain ⟨hp, hpairs⟩ := List.forall_mem_cons.mp hgiven
    obtain ⟨hfirst, hone⟩ := Setting.oneEach_cons.mp hone
    obtain ⟨r, hr, hout⟩ := bind_eq_ok.mp hout
    obtain ⟨o, hread, hdepth, hapart⟩ := hp.reads
    have hlaidlay : overlay (find? p.1.1 cur) p.2.2 = .ok r := by
      rw [hp.key]
      exact hr
    obtain ⟨s₁, own₁, hrun₁, hchanged₁, hread₁⟩ := run_mergeKey hinner htarget hown hchanges hp.stored
      hread hdepth hapart hp.textual hlaidlay
    have hlt : changes < s.length := (List.getElem?_eq_some_iff.mp hchanges).1
    -- the other keys find what they found before
    have hothers : ∀ e ∈ pairs.map Prod.snd, (e.1, overlay (find? e.1 cur) e.2)
        = (e.1, overlay (find? e.1 (Setting.insert p.1.1 r cur)) e.2) := by
      intro e he
      obtain ⟨q, hq, rfl⟩ := List.mem_map.mp he
      obtain ⟨k, hk⟩ := (hpairs q hq).text
      have hne : p.2.1 ≠ .text k := fun heq ↦
        hfirst k heq (Setting.mem_textKeys.mpr ⟨q.2.2, hk ▸ List.mem_map_of_mem hq⟩)
      rw [hk, Setting.find?_insert, if_neg (hp.key ▸ hne)]
    rw [List.map_congr_left hothers, ← hp.key] at hout
    obtain ⟨s₂, own₂, hrun₂, hchanged₂, hread₂⟩ := ih hread₁ hchanged₁.nodup
      ((hchanged₁.frame changes hlt hnot).trans hchanges) (hchanged₁.not_mem hlt hnot)
      (fun q hq ↦ (hpairs q hq).changed hchanged₁) hone hout
    refine ⟨s₂, own₂, ?_, hchanged₁.trans hchanged₂, hread₂⟩
    rw [List.map_cons, List.forM, run_bind hrun₁]
    exact hrun₂

/-- Entries that stand for each other hold each text key once on both sides. -/
theorem oneEach_fst {α β : Type} {pairs : List ((SettingKey × α) × (SettingKey × β))}
    (hkey : ∀ p ∈ pairs, p.1.1 = p.2.1) (h : OneEach (pairs.map Prod.snd)) :
    OneEach (pairs.map Prod.fst) := by
  have hkeys : Setting.textKeys (pairs.map Prod.fst) = Setting.textKeys (pairs.map Prod.snd) := by
    rw [Setting.textKeys, Setting.textKeys, List.filterMap_map, List.filterMap_map]
    exact List.filterMap_congr fun p hp ↦ congrArg SettingKey.text? (hkey p hp)
  rw [OneEach, hkeys]
  exact h

/-- **Merging in place does to the owned mapping what `overlay` does to its value.** -/
theorem mergesInto (depth : Nat) : MergesInto (mergeInto depth) depth := by
  induction depth with
  | zero =>
    intro s target changes cur vs out own o _ _ hread hdepth
    cases hread with
    | map _ _ => exact absurd hdepth (Nat.not_succ_le_zero _)
  | succ depth ih =>
    intro s target changes cur vs out own o htarget hown hread hdepth hapart htextual hout
    cases hread with
    | @map _ es _ o hcell hentries =>
      obtain ⟨pairs, rfl, rfl, hpairs⟩ := hentries.exists_pairs
      obtain ⟨hkeys, hone, hvalues⟩ := Setting.textual_map_iff.mp htextual
      have hkey : ∀ p ∈ pairs, p.1.1 = p.2.1 := fun p hp ↦ (hpairs p hp).choose_spec.2.key_eq
      obtain ⟨sorted, hperm, hstored, hsorted⟩ := exists_sort_pairs hkey fun p hp ↦
        hkeys p.2 (List.mem_map_of_mem hp)
      obtain ⟨merged, out', hmerged, hinsert, hmap⟩ := Setting.overlay_map_eq_ok hout
      obtain rfl := Setting.map.inj hmap
      rw [Setting.overlayEntries_eq_map, hsorted] at hmerged
      obtain rfl := Except.ok.inj hmerged
      rw [TurnsInto, mergeInto, run_bind (run_sortedEntries hcell hstored)]
      refine run_keys ih htarget hown hcell (hapart changes List.mem_cons_self) (fun p hp ↦ ?_)
        (hone.perm (hperm.map _)) hinsert
      have hp := hperm.mem_iff.mp hp
      obtain ⟨o', ho', hentry⟩ := hpairs p hp
      have hstored' : find? p.1.1 (pairs.map Prod.fst) = some p.1.2 := by
        obtain ⟨k, hk⟩ := hkeys p.2 (List.mem_map_of_mem hp)
        rw [← hkey p hp] at hk
        rw [hk, Setting.find?_eq_some_iff_mem (oneEach_fst hkey hone), ← hk]
        exact List.mem_map_of_mem hp
      exact ⟨hkey p hp, hkeys p.2 (List.mem_map_of_mem hp), hstored',
        hvalues p.2 (List.mem_map_of_mem hp), o', hentry.value,
        Nat.le_trans ho'.length_le (Nat.le_of_succ_le_succ hdepth), fun a ha ↦
          hapart a (List.mem_cons_of_mem _ (ho'.subset ha))⟩

/-- A mapping is copied in the order of its keys. -/
theorem exists_copyMapping {base : Nat} {vs : List (SettingKey × Setting)}
    (hread : Reads s (.object base) (.map vs) o) (hdepth : o.length ≤ depth)
    (htextual : Textual (.map vs)) : ∃ sorted, KeyOrder.sort vs = .ok sorted ∧
      Makes (fun s address ↦ Reads s (.object address)) s (copyMapping depth base)
        (.map (sorted.map fun e ↦ (e.1, e.2.copy))) := by
  cases hread with
  | @map _ es _ o hcell hentries =>
    obtain ⟨pairs, rfl, rfl, hpairs⟩ := hentries.exists_pairs
    obtain ⟨hkeys, -, -⟩ := Setting.textual_map_iff.mp htextual
    have hkey : ∀ p ∈ pairs, p.1.1 = p.2.1 := fun p hp ↦ (hpairs p hp).choose_spec.2.key_eq
    obtain ⟨sorted, hperm, hstored, hsorted⟩ := exists_sort_pairs hkey fun p hp ↦
      hkeys p.2 (List.mem_map_of_mem hp)
    have hvalues := hsorted fun e ↦ e.2
    rw [List.map_id', List.map_id'] at hvalues
    refine ⟨sorted.map Prod.snd, hvalues, fun s₀ hs₀ ↦ ?_⟩
    rw [copyMapping, run_bind (run_sortedEntries (getElem?_of_isPrefix hs₀ hcell) hstored)]
    refine (makes_copies fun p hp ↦ ?_).map s₀ hs₀
    have hp := hperm.mem_iff.mp hp
    obtain ⟨o', ho', hentry⟩ := hpairs p hp
    exact ⟨hentry.key_eq, makes_copy depth hentry.value
      (Nat.le_trans ho'.length_le (Nat.le_of_succ_le hdepth))⟩

/-- **Merging objects merges their values**, and makes a new object of it. -/
theorem run_merge {base : Nat} {a b ab : List (SettingKey × Setting)} {o₁ o₂ : List Nat}
    (hbase : Reads s (.object base) (.map a) o₁) (hchanges : Reads s (.object changes) (.map b) o₂)
    (hdepth₁ : o₁.length ≤ depth) (hdepth₂ : o₂.length ≤ depth) (ha : Textual (.map a))
    (hb : Textual (.map b)) (hmerge : Setting.merge a b = .ok (.map ab)) :
    ∃ merged s' own, (merge depth base changes).run s = .ok (merged, s') ∧ Changed s s' [] own ∧
      Reads s' (.object merged) (.map ab) own := by
  obtain ⟨sorted, hsorted, hmakes⟩ := exists_copyMapping hbase hdepth₁ ha
  obtain ⟨sorted', hsorted', hlaidlay⟩ := bind_eq_ok.mp hmerge
  obtain rfl := Except.ok.inj (hsorted.symm.trans hsorted')
  obtain ⟨merged, s₁, own₁, hrun₁, hchanged₁, -, hcopied⟩ := hmakes s (List.prefix_refl s)
  obtain ⟨hchanges₁, hapart⟩ := hchanged₁.apart hchanges fun _ _ ↦ List.not_mem_nil
  obtain ⟨s₂, own₂, hrun₂, hchanged₂, hmerged⟩ :=
    mergesInto depth hcopied hchanged₁.nodup hchanges₁ hdepth₂ hapart hb hlaidlay
  refine ⟨merged, s₂, own₂, ?_, hchanged₁.trans hchanged₂, hmerged⟩
  rw [merge, run_bind hrun₁, run_bind hrun₂]
  rfl

end Merge

end FeatureAtlas.Store

namespace FeatureAtlas.Setting

end FeatureAtlas.Setting
