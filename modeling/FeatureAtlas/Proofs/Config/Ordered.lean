import FeatureAtlas.Proofs.Config.Overlay

/-!
# When keys can be sorted

Merging sorts the keys of every mapping that it walks, and sorting fails at the first two keys without an
order. Which keys are compared depends on the way of sorting, but whether it fails does not: keys that have
an order are of one class, each key that is inserted is compared with one that already stands there, and so
sorting ends exactly if all keys are of one class. Hence a merge ends exactly if each two keys of each
mapping in the overlay can be compared; what is merged onto plays no part.
-/

namespace FeatureAtlas

/-! ## Classes of keys -/

/-- Keys that are compared with each other. -/
inductive KeyClass where
  | text
  | bytes
  | date
  | dateTime (hasOffset : Bool)
  | number
deriving DecidableEq

namespace SettingKey

/-- The class of a key. A null is compared with nothing, not even with itself. -/
def class? : SettingKey → Option KeyClass
  | text _ => some .text
  | bytes _ => some .bytes
  | date _ => some .date
  | dateTime t => some (.dateTime t.offset.isSome)
  | null => none
  | _ => some .number

/-- Two keys can be compared. -/
def Comparable (a b : SettingKey) : Prop := ∃ less, a.lt? b = .ok less

/-- Keys that are all of one class. -/
def OfClass (c : KeyClass) (keys : List SettingKey) : Prop := ∀ k ∈ keys, k.class? = some c

theorem ofClass_cons {c : KeyClass} {k : SettingKey} {keys : List SettingKey} :
    OfClass c (k :: keys) ↔ k.class? = some c ∧ OfClass c keys := List.forall_mem_cons

theorem comparable_iff {a b : SettingKey} :
    a.Comparable b ↔ ∃ c, a.class? = some c ∧ b.class? = some c := by
  cases a with
  | dateTime s =>
    cases b with
    | dateTime t =>
      rw [Comparable, lt?, class?, class?]
      by_cases h : s.offset.isSome = t.offset.isSome
      · simp [h]
      · simp [h, Ne.symm h]
    | _ => simp [Comparable, lt?, class?, isNumeric]
  | _ => cases b <;> simp [Comparable, lt?, class?, isNumeric]

theorem class?_of_comparable {a b : SettingKey} {c : KeyClass} (h : a.Comparable b)
    (hb : b.class? = some c) : a.class? = some c := by
  obtain ⟨c', ha, hb'⟩ := comparable_iff.mp h
  rw [hb] at hb'
  rw [ha, hb']

/-- Several keys can be compared with each other exactly if they are of one class. -/
theorem pairwise_comparable_iff {a b : SettingKey} {keys : List SettingKey} :
    (a :: b :: keys).Pairwise Comparable ↔ ∃ c, OfClass c (a :: b :: keys) := by
  constructor
  · intro h
    have hfirst := (List.pairwise_cons.mp h).1
    obtain ⟨c, ha, -⟩ := comparable_iff.mp (hfirst b List.mem_cons_self)
    refine ⟨c, ofClass_cons.mpr ⟨ha, fun k hk ↦ ?_⟩⟩
    obtain ⟨c', ha', hk'⟩ := comparable_iff.mp (hfirst k hk)
    rw [ha] at ha'
    rw [hk', ha']
  · rintro ⟨c, h⟩
    refine List.pairwise_of_forall_mem_list fun k hk k' hk' ↦ ?_
    exact comparable_iff.mpr ⟨c, h k hk, h k' hk'⟩

end SettingKey

open SettingKey (Comparable OfClass ofClass_cons comparable_iff class?_of_comparable)

/-! ## Sorting -/

namespace KeyOrder

variable {α : Type} {c : KeyClass}

/-- The keys of entries. -/
def keys (entries : List (SettingKey × α)) : List SettingKey := entries.map Prod.fst

theorem exists_lt? {a b : SettingKey} (ha : a.class? = some c) (hb : b.class? = some c) :
    ∃ less, a.lt? b = .ok less := comparable_iff.mpr ⟨c, ha, hb⟩

theorem exists_runLength (descending : Bool) {previous : SettingKey} {rest : List (SettingKey × α)}
    (hprevious : previous.class? = some c) (hrest : OfClass c (keys rest)) :
    ∃ n, runLength descending previous rest = .ok n := by
  induction rest generalizing previous with
  | nil => exact ⟨0, rfl⟩
  | cons e rest ih =>
    obtain ⟨hk, hrest⟩ := ofClass_cons.mp hrest
    obtain ⟨less, hless⟩ := exists_lt? hk hprevious
    obtain ⟨n, hn⟩ := ih hk hrest
    rw [runLength, hless]
    by_cases hdirection : less = descending
    · exact ⟨n + 1, by simp [bind, Except.bind, hdirection, hn, pure, Except.pure]⟩
    · exact ⟨0, by simp [bind, Except.bind, hdirection, pure, Except.pure]⟩

theorem exists_bisect {key : SettingKey} {entries : List (SettingKey × α)} (hkey : key.class? = some c)
    (hentries : OfClass c (keys entries)) (fuel lo hi : Nat) :
    ∃ place, bisect key entries fuel lo hi = .ok place := by
  induction fuel generalizing lo hi with
  | zero => exact ⟨lo, rfl⟩
  | succ fuel ih =>
    rw [bisect]
    split
    · exact ⟨lo, rfl⟩
    · dsimp only
      split
      · exact ⟨lo, rfl⟩
      · next k v hmid =>
        have hk : k.class? = some c :=
          hentries k (List.mem_map_of_mem (f := Prod.fst) (List.mem_of_getElem? hmid))
        obtain ⟨less, hless⟩ := exists_lt? hkey hk
        rw [hless]
        cases less with
        | true => exact ih lo _
        | false => exact ih _ hi

/-- Bisection between entries compares the key with one of them. -/
theorem exists_comparable_of_bisect {key : SettingKey} {entries : List (SettingKey × α)} {place : Nat}
    (hne : entries ≠ []) (h : bisect key entries entries.length 0 entries.length = .ok place) :
    ∃ k ∈ keys entries, key.Comparable k := by
  have hpos : 0 < entries.length := List.length_pos_iff.mpr hne
  obtain ⟨n, hn⟩ := Nat.exists_eq_succ_of_ne_zero (Nat.ne_of_gt hpos)
  rw [hn, bisect, if_neg (Nat.not_le_of_lt n.succ_pos)] at h
  dsimp only at h
  have hmid : 0 + (n.succ - 0) / 2 < entries.length := by omega
  rw [List.getElem?_eq_getElem hmid] at h
  obtain ⟨less, hless, -⟩ := bind_eq_ok.mp h
  exact ⟨_, List.mem_map_of_mem (List.getElem_mem hmid), less, hless⟩

theorem perm_inserted (sorted : List (SettingKey × α)) (e : SettingKey × α) (place : Nat) :
    (keys (sorted.take place ++ e :: sorted.drop place)).Perm (keys (e :: sorted)) := by
  refine List.Perm.map _ (List.perm_middle.trans ?_)
  rw [List.take_append_drop]

theorem ofClass_inserted {sorted : List (SettingKey × α)} {e : SettingKey × α} {place : Nat}
    (hsorted : OfClass c (keys sorted)) (he : e.1.class? = some c) :
    OfClass c (keys (sorted.take place ++ e :: sorted.drop place)) := by
  intro k hk
  rw [(perm_inserted sorted e place).mem_iff] at hk
  exact ofClass_cons.mpr ⟨he, hsorted⟩ k hk

theorem exists_insertAll {sorted rest : List (SettingKey × α)} (hsorted : OfClass c (keys sorted))
    (hrest : OfClass c (keys rest)) : ∃ out, insertAll sorted rest = .ok out := by
  induction rest generalizing sorted with
  | nil => exact ⟨sorted, rfl⟩
  | cons e rest ih =>
    obtain ⟨he, hrest⟩ := ofClass_cons.mp hrest
    obtain ⟨place, hplace⟩ := exists_bisect he hsorted sorted.length 0 sorted.length
    rw [insertAll, hplace]
    exact ih (ofClass_inserted hsorted he) hrest

/-- What is inserted among entries of a class is of that class: it was compared with one of them. -/
theorem ofClass_of_insertAll {sorted rest out : List (SettingKey × α)} (hne : sorted ≠ [])
    (hsorted : OfClass c (keys sorted)) (h : insertAll sorted rest = .ok out) :
    OfClass c (keys rest) := by
  induction rest generalizing sorted with
  | nil => exact List.forall_mem_nil _
  | cons e rest ih =>
    obtain ⟨place, hplace, h⟩ := bind_eq_ok.mp h
    obtain ⟨k, hk, hcomparable⟩ := exists_comparable_of_bisect hne hplace
    have he := class?_of_comparable hcomparable (hsorted k hk)
    exact ofClass_cons.mpr ⟨he, ih (by simp) (ofClass_inserted hsorted he) h⟩

/-- The keys of a run are of one class: each was compared with the one before it. -/
theorem ofClass_of_runLength {descending : Bool} {previous : SettingKey}
    {rest : List (SettingKey × α)} {n : Nat} (hprevious : previous.class? = some c)
    (h : runLength descending previous rest = .ok n) : OfClass c (keys (rest.take n)) := by
  induction rest generalizing previous n with
  | nil => simp [keys, OfClass]
  | cons e rest ih =>
    obtain ⟨less, hless, h⟩ := bind_eq_ok.mp h
    have he : e.1.class? = some c := class?_of_comparable ⟨less, hless⟩ hprevious
    split at h
    · obtain ⟨m, hm, h⟩ := bind_eq_ok.mp h
      obtain rfl := Except.ok.inj h
      exact ofClass_cons.mpr ⟨he, ih he hm⟩
    · obtain rfl := Except.ok.inj h
      simp [keys, OfClass]

theorem mem_keys_run {descending : Bool} {run : List (SettingKey × α)} {k : SettingKey} :
    k ∈ keys (if descending then run.reverse else run) ↔ k ∈ keys run := by
  split
  · rw [keys, List.map_reverse, List.mem_reverse, keys]
  · rfl

theorem sortMixed_isOk_iff (entries : List (SettingKey × α)) :
    (∃ sorted, sortMixed entries = .ok sorted) ↔ (keys entries).Pairwise Comparable := by
  match entries with
  | [] => simp [sortMixed, keys]
  | [e] => simp [sortMixed, keys]
  | e :: f :: rest =>
    rw [keys, List.map_cons, List.map_cons, SettingKey.pairwise_comparable_iff]
    constructor
    · rintro ⟨sorted, h⟩
      obtain ⟨descending, hless, h⟩ := bind_eq_ok.mp h
      obtain ⟨n, hn, h⟩ := bind_eq_ok.mp h
      obtain ⟨c, hf, he⟩ := comparable_iff.mp ⟨descending, hless⟩
      have hrun : OfClass c (keys (e :: f :: rest.take n)) :=
        ofClass_cons.mpr ⟨he, ofClass_cons.mpr ⟨hf, ofClass_of_runLength hf hn⟩⟩
      have hinserted : OfClass c (keys (rest.drop n)) :=
        ofClass_of_insertAll (by split <;> simp) (fun k hk ↦ hrun k (mem_keys_run.mp hk)) h
      refine ⟨c, fun k hk ↦ ?_⟩
      have hsplit : keys (e :: f :: rest) = keys (e :: f :: rest.take n) ++ keys (rest.drop n) := by
        rw [keys, keys, keys, ← List.map_append, List.cons_append, List.cons_append,
          List.take_append_drop]
      exact (List.mem_append.mp (hsplit ▸ hk : k ∈ _ ++ _)).elim (hrun k) (hinserted k)
    · rintro ⟨c, h⟩
      obtain ⟨he, h⟩ := ofClass_cons.mp h
      obtain ⟨hf, hrest⟩ := ofClass_cons.mp h
      obtain ⟨descending, hless⟩ := exists_lt? hf he
      obtain ⟨n, hn⟩ := exists_runLength descending hf hrest
      have hrun : OfClass c (keys (e :: f :: rest.take n)) :=
        ofClass_cons.mpr ⟨he, ofClass_cons.mpr ⟨hf, fun k hk ↦
          hrest k (List.map_subset _ (List.take_subset n rest) hk)⟩⟩
      have hdrop : OfClass c (keys (rest.drop n)) := fun k hk ↦
        hrest k (List.map_subset _ (List.drop_subset n rest) hk)
      obtain ⟨sorted, hsorted⟩ := exists_insertAll (fun k hk ↦ hrun k (mem_keys_run.mp hk)) hdrop
      refine ⟨sorted, bind_eq_ok.mpr ⟨descending, hless, bind_eq_ok.mpr ⟨n, hn, hsorted⟩⟩⟩

/-- **Sorting ends exactly if each two keys can be compared.** -/
theorem sort_isOk_iff (entries : List (SettingKey × α)) :
    (∃ sorted, sort entries = .ok sorted) ↔ (keys entries).Pairwise Comparable := by
  rw [sort]
  split
  · next fields hfields =>
    refine iff_of_true ⟨_, rfl⟩ ?_
    rw [Setting.textEntries?_eq_some.mp hfields, keys, List.map_map]
    exact List.pairwise_map.mpr (List.pairwise_of_forall fun a b ↦ ⟨_, rfl⟩)
  · exact sortMixed_isOk_iff entries

end KeyOrder

/-! ## Merging -/

namespace Setting

/-- Each two keys of each mapping can be compared. Mappings inside lists are left alone. -/
inductive Ordered : Setting → Prop where
  | map {es : List (SettingKey × Setting)} (hkeys : (KeyOrder.keys es).Pairwise Comparable)
      (hvalues : ∀ e ∈ es, Ordered e.2) : Ordered (.map es)
  | leaf {v : Setting} (h : v.entries? = none) : Ordered v

theorem ordered_map_iff {es : List (SettingKey × Setting)} :
    Ordered (.map es) ↔ (KeyOrder.keys es).Pairwise Comparable ∧ ∀ e ∈ es, Ordered e.2 := by
  constructor
  · rintro (⟨hkeys, hvalues⟩ | h)
    · exact ⟨hkeys, hvalues⟩
    · cases h
  · rintro ⟨hkeys, hvalues⟩
    exact .map hkeys hvalues

theorem pairwise_comparable_of_text {es : List (SettingKey × Setting)}
    (h : ∀ e ∈ es, ∃ s, e.1 = .text s) : (KeyOrder.keys es).Pairwise SettingKey.Comparable := by
  have hclass : ∀ k ∈ KeyOrder.keys es, k.class? = some .text := by
    intro k hk
    obtain ⟨e, he, rfl⟩ := List.mem_map.mp hk
    obtain ⟨s, hs⟩ := h e he
    rw [hs]
    rfl
  exact List.pairwise_of_forall_mem_list fun a ha b hb ↦
    SettingKey.comparable_iff.mpr ⟨.text, hclass a ha, hclass b hb⟩

theorem keys_overlayEntries (target es : List (SettingKey × Setting)) :
    KeyOrder.keys (overlayEntries target es) = KeyOrder.keys es := by
  induction es with
  | nil => rfl
  | cons e es ih => exact congrArg (e.1 :: ·) ih

theorem insertEach_isOk_iff {l : List (SettingKey × Except KeyOrderError Setting)}
    {target : List (SettingKey × Setting)} :
    (∃ out, insertEach l target = .ok out) ↔ ∀ e ∈ l, ∃ v, e.2 = .ok v := by
  induction l generalizing target with
  | nil => exact iff_of_true ⟨target, rfl⟩ (List.forall_mem_nil _)
  | cons e l ih =>
    rw [List.forall_mem_cons]
    constructor
    · rintro ⟨out, h⟩
      obtain ⟨v, hv, h⟩ := bind_eq_ok.mp h
      exact ⟨⟨v, hv⟩, ih.mp ⟨out, h⟩⟩
    · rintro ⟨⟨v, hv⟩, hl⟩
      obtain ⟨out, hout⟩ := ih.mpr hl
      exact ⟨out, bind_eq_ok.mpr ⟨v, hv, hout⟩⟩

theorem overlay_map_isOk_iff {existing : Option Setting} {es : List (SettingKey × Setting)} :
    (∃ r, overlay existing (.map es) = .ok r) ↔
      (KeyOrder.keys es).Pairwise Comparable ∧
        ∀ e ∈ overlayEntries (entriesOf existing) es, ∃ v, e.2 = .ok v := by
  rw [← keys_overlayEntries (entriesOf existing) es, ← KeyOrder.sort_isOk_iff]
  constructor
  · rintro ⟨r, h⟩
    rw [overlay] at h
    obtain ⟨merged, hmerged, h⟩ := bind_eq_ok.mp h
    obtain ⟨out, hout, -⟩ := bind_eq_ok.mp h
    refine ⟨⟨merged, hmerged⟩, fun e he ↦ ?_⟩
    exact insertEach_isOk_iff.mp ⟨out, hout⟩ e ((KeyOrder.sort_perm hmerged).mem_iff.mpr he)
  · rintro ⟨⟨merged, hmerged⟩, hvalues⟩
    have hinserted : ∃ out, insertEach merged (entriesOf existing) = .ok out :=
      insertEach_isOk_iff.mpr fun e he ↦ hvalues e ((KeyOrder.sort_perm hmerged).mem_iff.mp he)
    obtain ⟨out, hout⟩ := hinserted
    refine ⟨.map out, ?_⟩
    rw [overlay]
    exact bind_eq_ok.mpr ⟨merged, hmerged, bind_eq_ok.mpr ⟨out, hout, rfl⟩⟩

mutual

/-- An overlay ends exactly if it is ordered, whatever it is laid over. -/
theorem overlay_isOk_iff (existing : Option Setting) :
    (v : Setting) → ((∃ r, overlay existing v = .ok r) ↔ Ordered v)
  | .map es => by
    rw [overlay_map_isOk_iff, ordered_map_iff, overlayEntries_isOk_iff (entriesOf existing) es]
  | .null | .bool _ | .int _ | .float _ | .str _ | .date _ | .dateTime _ | .time _ | .bytes _
  | .list _ | .set _ => iff_of_true ⟨_, rfl⟩ (.leaf rfl)

theorem overlayEntries_isOk_iff (target : List (SettingKey × Setting)) :
    (es : List (SettingKey × Setting)) →
      ((∀ e ∈ overlayEntries target es, ∃ v, e.2 = .ok v) ↔ ∀ e ∈ es, Ordered e.2)
  | [] => iff_of_true (List.forall_mem_nil _) (List.forall_mem_nil _)
  | (k, v) :: es => by
    rw [overlayEntries, List.forall_mem_cons, List.forall_mem_cons,
      overlay_isOk_iff (find? k target) v, overlayEntries_isOk_iff target es]

end

/-- **A merge onto comparable keys ends exactly if the overlay is ordered.** -/
theorem merge_isOk_iff {base changes : List (SettingKey × Setting)}
    (hbase : (KeyOrder.keys base).Pairwise Comparable) :
    (∃ m, merge base changes = .ok m) ↔ Ordered (.map changes) := by
  obtain ⟨sorted, hsorted⟩ := (KeyOrder.sort_isOk_iff base).mpr hbase
  rw [merge, hsorted]
  exact overlay_isOk_iff _ (.map changes)

end Setting

end FeatureAtlas
