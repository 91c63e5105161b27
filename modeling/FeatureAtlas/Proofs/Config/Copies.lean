import FeatureAtlas.Config.Objects
import FeatureAtlas.Proofs.Config.Layers
import Mathlib.Data.List.Basic

/-!
# Values in objects

A slot holds a value together with the addresses of the objects that were met on the way (`Reads`). Values of
arguments may share objects, with each other and in themselves; a value that an action has made has each of its
objects once and shares none with what was there before. `Changed` says what an action may do: it changes objects
of its own, makes new ones, and owns what is left of both. A copy owns new objects only.
-/

namespace FeatureAtlas.Store

open Setting (find?)

/-! ## Running actions -/

section Run

variable {α β : Type} {s s' : Store} {address : Nat}

theorem run_bind {x : Action α} {f : α → Action β} {a : α} (h : x.run s = .ok (a, s')) :
    (x >>= f).run s = (f a).run s' := by
  rw [StateT.run_bind, h]
  rfl

theorem run_cell {c : Cell} (h : s[address]? = some c) : (cell address).run s = .ok (c, s) := by
  have hget : (get : Action Store).run s = .ok (s, s) := rfl
  rw [cell, run_bind hget, h]
  rfl

theorem run_make (c : Cell) : (make c).run s = .ok (s.length, s ++ [c]) := rfl

variable {es sorted : List (SettingKey × Slot)} {key : SettingKey} {slot : Slot}

theorem run_entries (h : s[address]? = some (.map es)) : (entries address).run s = .ok (es, s) := by
  rw [entries, run_bind (run_cell h)]
  rfl

theorem run_sortedEntries (h : s[address]? = some (.map es)) (hsort : KeyOrder.sort es = .ok sorted) :
    (sortedEntries address).run s = .ok (sorted, s) := by
  rw [sortedEntries, run_bind (run_entries h), hsort]
  rfl

theorem run_field (h : s[address]? = some (.map es)) (hfind : find? key es = some slot) :
    (field key address).run s = .ok (slot, s) := by
  rw [field, run_bind (run_entries h), hfind]
  rfl

theorem run_assign (h : s[address]? = some (.map es)) :
    (assign key slot address).run s = .ok ((), s.set address (.map (Setting.insert key slot es))) := by
  rw [assign, run_bind (run_entries h)]
  rfl

theorem run_mapping?_of_map (h : s[address]? = some (.map es)) :
    (mapping? (some (.object address))).run s = .ok (some address, s) := by
  rw [mapping?, run_bind (run_cell h)]
  rfl

end Run

/-! ## Reading values -/

section Each

variable {α β : Type} {R R' : α → β → List Nat → Prop}

/-- Lists that are related one by one, with the addresses of all relations in a row. -/
inductive Each (R : α → β → List Nat → Prop) : List α → List β → List Nat → Prop
  | nil : Each R [] [] []
  | cons {a : α} {b : β} {as : List α} {bs : List β} {own rest : List Nat} (h : R a b own)
    (hrest : Each R as bs rest) : Each R (a :: as) (b :: bs) (own ++ rest)

/-- Entries of one key whose values are related. -/
inductive Entry (R : α → β → List Nat → Prop) : SettingKey × α → SettingKey × β → List Nat → Prop
  | mk (key : SettingKey) {a : α} {b : β} {own : List Nat} (h : R a b own) : Entry R (key, a) (key, b) own

theorem Each.imp {as : List α} {bs : List β} {own : List Nat} (h : Each R as bs own)
    (himp : ∀ a b o, o.Sublist own → R a b o → R' a b o) : Each R' as bs own := by
  induction h with
  | nil => exact .nil
  | cons h hrest ih =>
    refine .cons (himp _ _ _ (List.sublist_append_left _ _) h) (ih fun a b o ho ↦ himp a b o ?_)
    exact ho.trans (List.sublist_append_right _ _)

theorem Entry.imp {e : SettingKey × α} {f : SettingKey × β} {own : List Nat} (h : Entry R e f own)
    (himp : ∀ a b, R a b own → R' a b own) : Entry R' e f own := by
  cases h with
  | mk key h => exact .mk key (himp _ _ h)

theorem Each.exists_of_mem {as : List α} {bs : List β} {own : List Nat} (h : Each R as bs own) {n : Nat}
    (hn : n ∈ own) : ∃ a b o, R a b o ∧ n ∈ o := by
  induction h with
  | nil => cases hn
  | cons h hrest ih =>
    rcases List.mem_append.mp hn with hn | hn
    · exact ⟨_, _, _, h, hn⟩
    · exact ih hn

/-- The pairs of related elements. -/
theorem Each.exists_pairs {as : List α} {bs : List β} {own : List Nat} (h : Each R as bs own) :
    ∃ pairs : List (α × β), as = pairs.map Prod.fst ∧ bs = pairs.map Prod.snd ∧
      ∀ p ∈ pairs, ∃ o : List Nat, o.Sublist own ∧ R p.1 p.2 o := by
  induction h with
  | nil => exact ⟨[], rfl, rfl, List.forall_mem_nil _⟩
  | @cons a b as bs own rest h hrest ih =>
    obtain ⟨pairs, rfl, rfl, hpairs⟩ := ih
    refine ⟨(a, b) :: pairs, rfl, rfl, List.forall_mem_cons.mpr ⟨⟨own, ?_, h⟩, fun p hp ↦ ?_⟩⟩
    · exact List.sublist_append_left _ _
    · obtain ⟨o, ho, hp⟩ := hpairs p hp
      exact ⟨o, ho.trans (List.sublist_append_right _ _), hp⟩

end Each

/-- A slot of a store holds a value, in objects of these addresses. -/
inductive Reads (s : Store) : Slot → Setting → List Nat → Prop
  | value {v : Setting} (h : v.IsScalar) : Reads s (.value v h) v []
  | list {address : Nat} {items : List Slot} {xs : List Setting} {own : List Nat}
    (hcell : s[address]? = some (.list items)) (hitems : Each (Reads s) items xs own) :
    Reads s (.object address) (.list xs) (address :: own)
  | map {address : Nat} {es : List (SettingKey × Slot)} {vs : List (SettingKey × Setting)}
    {own : List Nat} (hcell : s[address]? = some (.map es))
    (hentries : Each (Entry (Reads s)) es vs own) :
    Reads s (.object address) (.map vs) (address :: own)

section Reads

variable {s s' : Store} {slot : Slot} {v : Setting} {own : List Nat}

/-- Induction over a value that is read: each part is met before the whole. -/
theorem Reads.parts {motive : Slot → Setting → List Nat → Prop}
    (value : ∀ (v : Setting) (h : v.IsScalar), motive (.value v h) v [])
    (list : ∀ {address : Nat} {items : List Slot} {xs : List Setting} {own : List Nat},
      s[address]? = some (.list items) → Each (fun a b o ↦ Reads s a b o ∧ motive a b o) items xs own →
        motive (.object address) (.list xs) (address :: own))
    (map : ∀ {address : Nat} {es : List (SettingKey × Slot)} {vs : List (SettingKey × Setting)}
      {own : List Nat}, s[address]? = some (.map es) →
        Each (Entry fun a b o ↦ Reads s a b o ∧ motive a b o) es vs own →
          motive (.object address) (.map vs) (address :: own))
    (h : Reads s slot v own) : motive slot v own := by
  induction hn : own.length using Nat.strongRecOn generalizing slot v own with
  | ind n ih =>
    -- a part has fewer objects than the whole
    have hpart : ∀ {a : Slot} {b : Setting} {o rest : List Nat}, rest.length + 1 = n →
        o.Sublist rest → Reads s a b o → Reads s a b o ∧ motive a b o := fun hrest ho hread ↦
      ⟨hread, ih _ (hrest ▸ Nat.lt_succ_of_le ho.length_le) hread rfl⟩
    cases h with
    | value h => exact value v h
    | list hcell hitems => exact list hcell (hitems.imp fun a b o ho ↦ hpart hn ho)
    | map hcell hentries =>
      exact map hcell (hentries.imp fun e f o ho he ↦ he.imp fun a b ↦ hpart hn ho)

/-- All objects that are met are in the store. -/
theorem Reads.lt (h : Reads s slot v own) : ∀ a ∈ own, a < s.length := by
  refine Reads.parts (motive := fun _ _ own ↦ ∀ a ∈ own, a < s.length) ?_ ?_ ?_ h
  · exact fun v h ↦ List.forall_mem_nil _
  · intro address items xs own hcell hitems
    refine List.forall_mem_cons.mpr ⟨(List.getElem?_eq_some_iff.mp hcell).1, fun n hn ↦ ?_⟩
    obtain ⟨_, _, o, ⟨-, hlt⟩, hmem⟩ := hitems.exists_of_mem hn
    exact hlt n hmem
  · intro address es vs own hcell hentries
    refine List.forall_mem_cons.mpr ⟨(List.getElem?_eq_some_iff.mp hcell).1, fun n hn ↦ ?_⟩
    obtain ⟨_, _, o, ⟨_, -, hlt⟩, hmem⟩ := hentries.exists_of_mem hn
    exact hlt n hmem

/-- A value is read as before where its objects are as before. -/
theorem Reads.frame (h : Reads s slot v own) (hframe : ∀ a ∈ own, s'[a]? = s[a]?) :
    Reads s' slot v own := by
  refine Reads.parts (motive := fun slot v own ↦ (∀ a ∈ own, s'[a]? = s[a]?) → Reads s' slot v own)
    ?_ ?_ ?_ h hframe
  · exact fun v h _ ↦ .value h
  · intro address items xs own hcell hitems hframe
    obtain ⟨hsame, hrest⟩ := List.forall_mem_cons.mp hframe
    exact .list (hsame.trans hcell) (hitems.imp fun a b o ho hpart ↦
      hpart.2 fun n hn ↦ hrest n (ho.subset hn))
  · intro address es vs own hcell hentries hframe
    obtain ⟨hsame, hrest⟩ := List.forall_mem_cons.mp hframe
    exact .map (hsame.trans hcell) (hentries.imp fun e f o ho hentry ↦
      hentry.imp fun a b hpart ↦ hpart.2 fun n hn ↦ hrest n (ho.subset hn))

end Reads

/-! ## What actions change -/

/-- An action that may change the objects `own` and make new ones, and that owns the objects `own'` afterwards,
each of which is one of these. -/
structure Changed (s s' : Store) (own own' : List Nat) : Prop where
  nodup : own'.Nodup
  mine : ∀ a ∈ own', a ∈ own ∨ s.length ≤ a
  frame : ∀ a, a < s.length → a ∉ own → s'[a]? = s[a]?
  length_le : s.length ≤ s'.length

section Changed

variable {s s₁ s₂ : Store} {own own₁ own₂ : List Nat}

theorem Changed.refl (h : own.Nodup) : Changed s s own own :=
  ⟨h, fun _ ha ↦ .inl ha, fun _ _ _ ↦ rfl, Nat.le_refl _⟩

/-- An object that is not the action's does not become one. -/
theorem Changed.not_mem (h : Changed s s₁ own own₁) {a : Nat} (ha : a < s.length) (hown : a ∉ own) :
    a ∉ own₁ := fun hmem ↦ (h.mine a hmem).elim hown fun hle ↦ absurd ha (Nat.not_lt.mpr hle)

theorem Changed.trans (h₁ : Changed s s₁ own own₁) (h₂ : Changed s₁ s₂ own₁ own₂) :
    Changed s s₂ own own₂ where
  nodup := h₂.nodup
  mine := fun a ha ↦ (h₂.mine a ha).elim (h₁.mine a) fun hle ↦ .inr (Nat.le_trans h₁.length_le hle)
  frame := fun a ha hown ↦ by
    rw [h₂.frame a (Nat.lt_of_lt_of_le ha h₁.length_le) (h₁.not_mem ha hown), h₁.frame a ha hown]
  length_le := Nat.le_trans h₁.length_le h₂.length_le

/-- What shares no object with those of the action is read as before, and still shares none. -/
theorem Changed.apart (h : Changed s s₁ own own₁) {slot : Slot} {v : Setting} {o : List Nat}
    (hread : Reads s slot v o) (hapart : ∀ a ∈ o, a ∉ own) :
    Reads s₁ slot v o ∧ ∀ a ∈ o, a ∉ own₁ := by
  exact ⟨hread.frame fun a ha ↦ h.frame a (hread.lt a ha) (hapart a ha), fun a ha ↦
    h.not_mem (hread.lt a ha) (hapart a ha)⟩

/-- Two values that were made one after the other. -/
theorem Changed.append (h₁ : Changed s s₁ [] own₁) (hlt : ∀ a ∈ own₁, a < s₁.length)
    (h₂ : Changed s₁ s₂ [] own₂) : Changed s s₂ [] (own₁ ++ own₂) where
  nodup := by
    refine List.nodup_append.mpr ⟨h₁.nodup, h₂.nodup, fun a ha b hb heq ↦ ?_⟩
    have hle := (h₂.mine b hb).resolve_left List.not_mem_nil
    exact absurd (hlt a ha) (Nat.not_lt.mpr (heq ▸ hle))
  mine := List.forall_mem_append.mpr ⟨h₁.mine, fun a ha ↦ .inr (Nat.le_trans h₁.length_le
    ((h₂.mine a ha).resolve_left List.not_mem_nil))⟩
  frame := fun a ha _ ↦ (h₂.frame a (Nat.lt_of_lt_of_le ha h₁.length_le) List.not_mem_nil).trans
    (h₁.frame a ha List.not_mem_nil)
  length_le := Nat.le_trans h₁.length_le h₂.length_le

/-- A new object around values that were made. -/
theorem Changed.make (h : Changed s s₁ [] own₁) (hlt : ∀ a ∈ own₁, a < s₁.length) (c : Cell) :
    Changed s (s₁ ++ [c]) [] (s₁.length :: own₁) where
  nodup := List.nodup_cons.mpr ⟨fun hmem ↦ Nat.lt_irrefl _ (hlt _ hmem), h.nodup⟩
  mine := List.forall_mem_cons.mpr ⟨.inr h.length_le, h.mine⟩
  frame := fun a ha hown ↦ by
    rw [List.getElem?_append_left (Nat.lt_of_lt_of_le ha h.length_le)]
    exact h.frame a ha hown
  length_le := Nat.le_trans h.length_le (by rw [List.length_append]; exact Nat.le_add_right _ _)

end Changed

/-! ## Copies -/

section Makes

variable {α β γ δ : Type} {s : Store}

/-- In a store with these objects, the action makes something that stands for `b` and shares no object with what
was there before. -/
def Makes (R : Store → α → β → List Nat → Prop) (s : Store) (action : Action α) (b : β) : Prop :=
  ∀ s₀, s <+: s₀ → ∃ a s₁ own, action.run s₀ = .ok (a, s₁) ∧ Changed s₀ s₁ [] own ∧
    (∀ n ∈ own, n < s₁.length) ∧ R s₁ a b own

theorem Changed.isPrefix {s₀ s₁ : Store} {own : List Nat} (h : Changed s₀ s₁ [] own) : s₀ <+: s₁ := by
  refine List.prefix_iff_getElem?.mpr fun a ha ↦ ?_
  rw [h.frame a ha List.not_mem_nil, List.getElem?_eq_getElem ha]

theorem getElem?_of_isPrefix {s₀ : Store} (h : s <+: s₀) {address : Nat} {c : Cell}
    (hc : s[address]? = some c) : s₀[address]? = some c := by
  obtain ⟨hlt, rfl⟩ := List.getElem?_eq_some_iff.mp hc
  exact List.prefix_iff_getElem?.mp h address hlt

/-- What is made one after the other stays apart. -/
theorem Makes.mapM {R : Store → γ → δ → List Nat → Prop}
    (hframe : ∀ {s s' c d own}, R s c d own → (∀ n ∈ own, s'[n]? = s[n]?) → R s' c d own)
    {f : α → Action γ} {g : β → δ} {pairs : List (α × β)}
    (h : ∀ p ∈ pairs, Makes R s (f p.1) (g p.2)) :
    Makes (fun s ↦ Each (R s)) s ((pairs.map Prod.fst).mapM f) ((pairs.map Prod.snd).map g) := by
  induction pairs with
  | nil => exact fun s₀ _ ↦ ⟨[], s₀, [], rfl, .refl List.nodup_nil, List.forall_mem_nil _, .nil⟩
  | cons p pairs ih =>
    intro s₀ hs₀
    obtain ⟨hp, hpairs⟩ := List.forall_mem_cons.mp h
    obtain ⟨c, s₁, own₁, hrun₁, hchanged₁, hlt₁, hc⟩ := hp s₀ hs₀
    obtain ⟨cs, s₂, own₂, hrun₂, hchanged₂, hlt₂, hcs⟩ := ih hpairs s₁ (hs₀.trans hchanged₁.isPrefix)
    refine ⟨c :: cs, s₂, own₁ ++ own₂, ?_, hchanged₁.append hlt₁ hchanged₂, ?_, .cons ?_ hcs⟩
    · rw [List.map_cons, List.mapM_cons, run_bind hrun₁, run_bind hrun₂]
      rfl
    · exact List.forall_mem_append.mpr
        ⟨fun n hn ↦ Nat.lt_of_lt_of_le (hlt₁ n hn) hchanged₂.length_le, hlt₂⟩
    · exact hframe hc fun n hn ↦ hchanged₂.frame n (hlt₁ n hn) List.not_mem_nil

/-- What is made of the value of an entry is made of the entry. -/
theorem Makes.entry {R : Store → γ → δ → List Nat → Prop} {f : α → Action γ} {a : α} {d : δ}
    (h : Makes R s (f a) d) (key : SettingKey) :
    Makes (fun s ↦ Entry (R s)) s (do return (key, ← f a)) (key, d) := by
  intro s₀ hs₀
  obtain ⟨c, s₁, own, hrun, hchanged, hlt, hc⟩ := h s₀ hs₀
  refine ⟨(key, c), s₁, own, ?_, hchanged, hlt, .mk key hc⟩
  rw [run_bind hrun]
  rfl

/-- An object is made around what was made. -/
theorem Makes.object {R : Store → γ → δ → List Nat → Prop} {Q : Store → Nat → β → List Nat → Prop}
    {action : Action γ} {d : δ} {b : β} (h : Makes R s action d) (content : γ → Cell)
    (hobject : ∀ s₁ c own, R s₁ c d own → Q (s₁ ++ [content c]) s₁.length b (s₁.length :: own)) :
    Makes Q s (do make (content (← action))) b := by
  intro s₀ hs₀
  obtain ⟨c, s₁, own, hrun, hchanged, hlt, hc⟩ := h s₀ hs₀
  refine ⟨s₁.length, s₁ ++ [content c], s₁.length :: own, ?_, hchanged.make hlt _, ?_,
    hobject s₁ c own hc⟩
  · rw [run_bind hrun]
    rfl
  · rw [List.length_append]
    exact List.forall_mem_cons.mpr
      ⟨Nat.lt_succ_self _, fun n hn ↦ Nat.lt_succ_of_lt (hlt n hn)⟩

/-- A cell at the end of a store leaves what was read there as it was. -/
theorem Reads.append {slot : Slot} {v : Setting} {own : List Nat} (h : Reads s slot v own) (c : Cell) :
    Reads (s ++ [c]) slot v own :=
  h.frame fun a ha ↦ List.getElem?_append_left (h.lt a ha)

theorem Makes.list {action : Action (List Slot)} {xs : List Setting}
    (h : Makes (fun s ↦ Each (Reads s)) s action xs) :
    Makes (fun s address ↦ Reads s (.object address)) s (do make (.list (← action))) (.list xs) :=
  h.object .list fun _ _ _ hitems ↦
    .list List.getElem?_concat_length (hitems.imp fun _ _ _ _ hread ↦ hread.append _)

theorem Makes.map {action : Action (List (SettingKey × Slot))} {vs : List (SettingKey × Setting)}
    (h : Makes (fun s ↦ Each (Entry (Reads s))) s action vs) :
    Makes (fun s address ↦ Reads s (.object address)) s (do make (.map (← action))) (.map vs) :=
  h.object .map fun _ _ _ hentries ↦
    .map List.getElem?_concat_length (hentries.imp fun _ _ _ _ hentry ↦ hentry.imp fun _ _ hread ↦
      hread.append _)

/-- A slot for an object that was made. -/
theorem Makes.slot {action : Action Nat} {v : Setting}
    (h : Makes (fun s address ↦ Reads s (.object address)) s action v) :
    Makes Reads s (do return .object (← action)) v := by
  intro s₀ hs₀
  obtain ⟨address, s₁, own, hrun, hchanged, hlt, hread⟩ := h s₀ hs₀
  refine ⟨.object address, s₁, own, ?_, hchanged, hlt, hread⟩
  rw [run_bind hrun]
  rfl

/-- What is made after looking at an object. -/
theorem Makes.ofCell {R : Store → α → β → List Nat → Prop} {address : Nat} {c : Cell}
    {f : Cell → Action α} {b : β} (h : Makes R s (f c) b) (hc : s[address]? = some c) :
    Makes R s (cell address >>= f) b := by
  intro s₀ hs₀
  rw [run_bind (run_cell (getElem?_of_isPrefix hs₀ hc))]
  exact h s₀ hs₀

theorem copy_value (depth : Nat) (v : Setting) (h : v.IsScalar) :
    copy depth (.value v h) = pure (.value v h) := by
  cases depth <;> rfl

/-- Entries that stand for each other have one key. -/
theorem Entry.key_eq {R : α → β → List Nat → Prop} {e : SettingKey × α} {f : SettingKey × β}
    {own : List Nat} (h : Entry R e f own) : e.1 = f.1 := by
  cases h
  rfl

theorem Entry.value {R : α → β → List Nat → Prop} {e : SettingKey × α} {f : SettingKey × β}
    {own : List Nat} (h : Entry R e f own) : R e.2 f.2 own := by
  cases h
  assumption

/-- Entries whose values are copied. -/
theorem makes_copies {depth : Nat} {pairs : List ((SettingKey × Slot) × (SettingKey × Setting))}
    (h : ∀ p ∈ pairs, p.1.1 = p.2.1 ∧ Makes Reads s (copy depth p.1.2) p.2.2.copy) :
    Makes (fun s ↦ Each (Entry (Reads s))) s
      ((pairs.map Prod.fst).mapM fun e ↦ do return (e.1, ← copy depth e.2))
      ((pairs.map Prod.snd).map fun e ↦ (e.1, e.2.copy)) := by
  refine Makes.mapM (fun hentry hframe ↦ hentry.imp fun a b hread ↦ hread.frame hframe) fun p hp ↦ ?_
  obtain ⟨hkey, hmakes⟩ := h p hp
  rw [← hkey]
  exact hmakes.entry p.1.1

/-- **A copy holds the copied value in objects of its own.** -/
theorem makes_copy (depth : Nat) : ∀ {slot : Slot} {v : Setting} {own : List Nat},
    Reads s slot v own → own.length ≤ depth → Makes Reads s (copy depth slot) v.copy := by
  have hvalue : ∀ (depth : Nat) (v : Setting) (h : v.IsScalar),
      Makes Reads s (copy depth (.value v h)) v.copy := by
    intro depth v h s₀ _
    rw [copy_value, h.copy_eq]
    exact ⟨.value v h, s₀, [], rfl, .refl List.nodup_nil, List.forall_mem_nil _, .value h⟩
  induction depth with
  | zero =>
    intro slot v own h hdepth
    cases h with
    | value h => exact hvalue 0 _ h
    | list _ _ => exact absurd hdepth (Nat.not_succ_le_zero _)
    | map _ _ => exact absurd hdepth (Nat.not_succ_le_zero _)
  | succ depth ih =>
    intro slot v own h hdepth
    cases h with
    | value h => exact hvalue (depth + 1) _ h
    | @list address items xs own hcell hitems =>
      obtain ⟨pairs, rfl, rfl, hpairs⟩ := hitems.exists_pairs
      have hparts : ∀ p ∈ pairs, Makes Reads s (copy depth p.1) p.2.copy := by
        intro p hp
        obtain ⟨o, ho, hread⟩ := hpairs p hp
        exact ih hread (Nat.le_trans ho.length_le (Nat.le_of_succ_le_succ hdepth))
      have hmakes := (Makes.mapM (R := Reads) Reads.frame hparts).list.slot
      rw [bind_assoc] at hmakes
      rw [copy, Setting.copy, Setting.copyItems_eq_map]
      exact hmakes.ofCell hcell
    | @map address es vs own hcell hentries =>
      obtain ⟨pairs, rfl, rfl, hpairs⟩ := hentries.exists_pairs
      have hparts : ∀ p ∈ pairs, p.1.1 = p.2.1 ∧ Makes Reads s (copy depth p.1.2) p.2.2.copy := by
        intro p hp
        obtain ⟨o, ho, hentry⟩ := hpairs p hp
        exact ⟨hentry.key_eq,
          ih hentry.value (Nat.le_trans ho.length_le (Nat.le_of_succ_le_succ hdepth))⟩
      have hsame : (pairs.map Prod.snd).filter (fun e ↦ e.1.text?.isSome)
          = (pairs.filter fun p ↦ p.1.1.text?.isSome).map Prod.snd := by
        rw [List.filter_map]
        refine congrArg (List.map _) (List.filter_congr fun p hp ↦ ?_)
        rw [Function.comp_apply, (hparts p hp).1]
      have hkept : (pairs.map Prod.fst).filter (fun e ↦ e.1.text?.isSome)
          = (pairs.filter fun p ↦ p.1.1.text?.isSome).map Prod.fst := List.filter_map
      have hfiltered : ∀ p ∈ pairs.filter fun p ↦ p.1.1.text?.isSome,
          p.1.1 = p.2.1 ∧ Makes Reads s (copy depth p.1.2) p.2.2.copy := fun p hp ↦
        hparts p (List.mem_filter.mp hp).1
      have hmakes := (makes_copies hfiltered).map.slot
      rw [bind_assoc, ← hkept, ← hsame] at hmakes
      rw [copy, Setting.copy, Setting.copyEntries_eq_map]
      exact hmakes.ofCell hcell

end Makes

end FeatureAtlas.Store
