import FeatureAtlas.Config.Merge
import FeatureAtlas.Proofs.Table

/-!
# Laws of mappings

A mapping is known by its values at text keys: setting a key changes one of them and leaves the others
alone, and an order of the entries changes none. The latter needs that no text key stands twice, which holds
of every mapping. Other keys than texts are allowed everywhere and never matter, because no such key is one
key with a text.
-/

namespace FeatureAtlas

namespace SettingKey

theorem same_text {k : SettingKey} {s : String} : k.same (.text s) = true ↔ k = .text s := by
  cases k with
  | float x => cases x <;> simp [same, ratio?]
  | _ => simp [same, ratio?]

theorem text_same {k : SettingKey} {s : String} : (text s).same k = true ↔ k = .text s := by
  cases k with
  | float x => cases x <;> simp [same, ratio?]
  | text t =>
    rw [same_text]
    exact eq_comm
  | _ => simp [same, ratio?]

theorem text?_eq_some {k : SettingKey} {s : String} : k.text? = some s ↔ k = .text s := by
  cases k with
  | text t => simp [text?]
  | _ => simp [text?]

end SettingKey

namespace Setting

variable {α β : Type}

/-! ## Text keys -/

/-- The text keys of entries. -/
def textKeys (es : List (SettingKey × α)) : List String := es.filterMap fun e ↦ e.1.text?

/-- No text key stands twice. -/
def OneEach (es : List (SettingKey × α)) : Prop := (textKeys es).Nodup

instance (es : List (SettingKey × α)) : Decidable (OneEach es) :=
  inferInstanceAs (Decidable (List.Nodup _))

theorem mem_textKeys {es : List (SettingKey × α)} {s : String} :
    s ∈ textKeys es ↔ ∃ v, (.text s, v) ∈ es := by
  rw [textKeys, List.mem_filterMap]
  constructor
  · rintro ⟨⟨k, v⟩, hmem, hk⟩
    rw [SettingKey.text?_eq_some] at hk
    exact ⟨v, hk ▸ hmem⟩
  · rintro ⟨v, hmem⟩
    exact ⟨(.text s, v), hmem, rfl⟩

theorem oneEach_cons {k : SettingKey} {v : α} {es : List (SettingKey × α)} :
    OneEach ((k, v) :: es) ↔ (∀ s, k = .text s → s ∉ textKeys es) ∧ OneEach es := by
  rw [OneEach, textKeys, List.filterMap_cons]
  cases hk : k.text? with
  | none =>
    have hne : ∀ s, k ≠ .text s := by
      rintro s rfl
      cases hk
    simp [hne, OneEach, textKeys]
  | some s =>
    rw [SettingKey.text?_eq_some.mp hk]
    simp [OneEach, textKeys]

theorem OneEach.perm {es es' : List (SettingKey × α)} (h : OneEach es) (hp : es'.Perm es) :
    OneEach es' := (hp.filterMap _).nodup_iff.mpr h

theorem textKeys_map (f : SettingKey × α → β) (es : List (SettingKey × α)) :
    textKeys (es.map fun e ↦ (e.1, f e)) = textKeys es := by
  rw [textKeys, List.filterMap_map]
  rfl

/-! ## Finding and setting -/

theorem find?_cons {k : SettingKey} {v : α} {es : List (SettingKey × α)} {s : String} :
    find? (.text s) ((k, v) :: es) = if k = .text s then some v else find? (.text s) es := by
  rw [find?]
  simp only [SettingKey.same_text]

theorem mem_of_find? {es : List (SettingKey × α)} {s : String} {v : α}
    (h : find? (.text s) es = some v) : (.text s, v) ∈ es := by
  induction es with
  | nil => cases h
  | cons e es ih =>
    obtain ⟨k, w⟩ := e
    rw [find?_cons] at h
    split at h
    · next hk =>
      rw [hk, Option.some.inj h]
      exact List.mem_cons_self
    · exact List.mem_cons_of_mem _ (ih h)

theorem find?_eq_some_iff_mem {es : List (SettingKey × α)} (hes : OneEach es) {s : String}
    {v : α} : find? (.text s) es = some v ↔ (.text s, v) ∈ es := by
  refine ⟨mem_of_find?, fun h ↦ ?_⟩
  induction es with
  | nil => cases h
  | cons e es ih =>
    obtain ⟨k, w⟩ := e
    obtain ⟨hk, hrest⟩ := oneEach_cons.mp hes
    rw [find?_cons]
    rcases List.mem_cons.mp h with heq | hmem
    · obtain ⟨rfl, rfl⟩ := Prod.mk.inj heq
      rw [if_pos rfl]
    · rw [if_neg fun hks ↦ hk s hks (mem_textKeys.mpr ⟨v, hmem⟩)]
      exact ih hrest hmem

theorem isSome_find? {es : List (SettingKey × Setting)} {s : String} :
    (find? (.text s) es).isSome = true ↔ s ∈ textKeys es := by
  induction es with
  | nil => simp [find?, textKeys]
  | cons e es ih =>
    obtain ⟨k, w⟩ := e
    rw [find?_cons, mem_textKeys]
    split
    · next hk => simp [hk]
    · next hk =>
      rw [ih, mem_textKeys]
      simp [Ne.symm hk]

/-- The order of entries is irrelevant. -/
theorem find?_perm {es es' : List (SettingKey × Setting)} (hes : OneEach es) (hp : es'.Perm es)
    (s : String) : find? (.text s) es' = find? (.text s) es := by
  refine Option.ext fun v ↦ ?_
  rw [find?_eq_some_iff_mem (hes.perm hp), find?_eq_some_iff_mem hes, hp.mem_iff]

theorem find?_map (f : Setting → Setting) (es : List (SettingKey × Setting)) (s : String) :
    find? (.text s) (es.map fun e ↦ (e.1, f e.2)) = (find? (.text s) es).map f := by
  induction es with
  | nil => rfl
  | cons e es ih =>
    obtain ⟨k, v⟩ := e
    rw [List.map_cons, find?_cons, find?_cons, ih]
    split <;> rfl

/-- Setting a key changes the value of that key alone. -/
theorem find?_insert (k : SettingKey) (v : Setting) (es : List (SettingKey × Setting)) (s : String) :
    find? (.text s) (insert k v es) = if k = .text s then some v else find? (.text s) es := by
  induction es with
  | nil => rw [insert, find?_cons]
  | cons e es ih =>
    obtain ⟨k', w⟩ := e
    rw [insert]
    split
    · next hsame =>
      -- one of the two is the text exactly if the other is
      have hiff : k' = .text s ↔ k = .text s := by
        constructor
        · rintro rfl
          exact SettingKey.text_same.mp hsame
        · rintro rfl
          exact SettingKey.same_text.mp hsame
      rw [find?_cons, find?_cons]
      simp only [hiff]
      split <;> rfl
    · next hsame =>
      rw [find?_cons, find?_cons, ih]
      by_cases hk : k = .text s
      · subst hk
        rw [if_neg (fun h ↦ hsame (SettingKey.same_text.mpr h)), if_pos rfl, if_pos rfl]
      · simp only [if_neg hk]

theorem mem_textKeys_insert {k : SettingKey} {v : Setting} {es : List (SettingKey × Setting)}
    {s : String} : s ∈ textKeys (insert k v es) ↔ k = .text s ∨ s ∈ textKeys es := by
  rw [← isSome_find?, find?_insert, ← isSome_find?]
  split
  · next hk => simp [hk]
  · next hk => simp [hk]

theorem OneEach.insert {es : List (SettingKey × Setting)} (h : OneEach es) (k : SettingKey)
    (v : Setting) : OneEach (insert k v es) := by
  induction es with
  | nil => exact oneEach_cons.mpr ⟨fun _ _ ↦ List.not_mem_nil, List.nodup_nil⟩
  | cons e es ih =>
    obtain ⟨k', w⟩ := e
    obtain ⟨hk', hrest⟩ := oneEach_cons.mp h
    rw [Setting.insert]
    split
    · exact oneEach_cons.mpr ⟨hk', hrest⟩
    · next hsame =>
      refine oneEach_cons.mpr ⟨fun s hs ↦ ?_, ih hrest⟩
      rw [mem_textKeys_insert, not_or]
      subst hs
      exact ⟨fun hk ↦ hsame (SettingKey.text_same.mpr hk), hk' s rfl⟩

/-- What a mapping holds after a key was set: its own entries, and the value under one of the keys. -/
theorem mem_of_mem_insert {k : SettingKey} {v : Setting} {es : List (SettingKey × Setting)}
    {e : SettingKey × Setting} (h : e ∈ insert k v es) :
    e ∈ es ∨ e.2 = v ∧ (e.1 = k ∨ ∃ e' ∈ es, e.1 = e'.1) := by
  induction es with
  | nil =>
    rw [List.mem_singleton.mp h]
    exact .inr ⟨rfl, .inl rfl⟩
  | cons e' es ih =>
    rw [insert] at h
    split at h
    · rcases List.mem_cons.mp h with rfl | hmem
      · exact .inr ⟨rfl, .inr ⟨e', List.mem_cons_self, rfl⟩⟩
      · exact .inl (List.mem_cons_of_mem _ hmem)
    · rcases List.mem_cons.mp h with rfl | hmem
      · exact .inl List.mem_cons_self
      · rcases ih hmem with hes | ⟨hv, rfl | ⟨e'', he'', hk⟩⟩
        · exact .inl (List.mem_cons_of_mem _ hes)
        · exact .inr ⟨hv, .inl rfl⟩
        · exact .inr ⟨hv, .inr ⟨e'', List.mem_cons_of_mem _ he'', hk⟩⟩

theorem text_of_mem_insert {k : SettingKey} {v : Setting} {es : List (SettingKey × Setting)}
    (hk : ∃ s, k = .text s) (hes : ∀ e ∈ es, ∃ s, e.1 = .text s) :
    ∀ e ∈ insert k v es, ∃ s, e.1 = .text s := by
  intro e he
  rcases mem_of_mem_insert he with hmem | ⟨-, rfl | ⟨e', he', hkey⟩⟩
  · exact hes e hmem
  · exact hk
  · rw [hkey]
    exact hes e' he'

/-! ## Mappings with text keys alone -/

theorem textEntries?_eq_some {es : List (SettingKey × α)} {fields : List (String × α)} :
    KeyOrder.textEntries? es = some fields ↔ es = fields.map fun e ↦ (.text e.1, e.2) := by
  induction es generalizing fields with
  | nil => cases fields <;> simp [KeyOrder.textEntries?]
  | cons e es ih =>
    obtain ⟨k, v⟩ := e
    rw [KeyOrder.textEntries?]
    simp only [bind_pure_comp, Option.bind_eq_bind, Option.bind_eq_some_iff, SettingKey.text?_eq_some,
      Option.map_eq_map, Option.map_eq_some_iff, ih]
    constructor
    · rintro ⟨s, rfl, rest, rfl, rfl⟩
      rfl
    · intro h
      cases fields with
      | nil => cases h
      | cons field rest =>
        obtain ⟨hhead, htail⟩ := List.cons.inj h
        obtain ⟨hk, hv⟩ := Prod.mk.inj hhead
        exact ⟨field.1, hk, rest, htail, by rw [hv]⟩

theorem ofFields_inj {fields fields' : Table Setting} (h : ofFields fields = ofFields fields') :
    fields = fields' := by
  have hentries := textEntries?_eq_some.mpr (map.inj h)
  rw [textEntries?_eq_some.mpr rfl] at hentries
  exact Option.some.inj hentries

theorem field?_ofFields (fields : Table Setting) (s : String) :
    (ofFields fields).field? s = fields.lookup s := by
  rw [ofFields, field?]
  induction fields with
  | nil => rfl
  | cons field rest ih =>
    obtain ⟨k, v⟩ := field
    rw [List.map_cons, find?_cons, List.lookup_cons]
    by_cases hk : k = s
    · simp [hk]
    · rw [if_neg (by simpa using hk), beq_eq_false_iff_ne.mpr (Ne.symm hk)]
      exact ih

end Setting

end FeatureAtlas
