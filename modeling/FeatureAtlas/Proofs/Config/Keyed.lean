import FeatureAtlas.Config.Load
import FeatureAtlas.Proofs.Config.Overlay

/-!
# Files hold each key once

Configurations are read as mappings, and a mapping holds each key once, at every depth. For values this is
the predicate `Setting.Keyed`. Both readers build their mappings entry by entry, and setting an entry keeps
the predicate, so that whatever a file says, what is read of it is keyed. Scalars are keyed because there is
nothing in them.
-/

namespace FeatureAtlas

namespace Setting

/-- Every mapping in a value holds each text key once. -/
inductive Keyed : Setting → Prop
  | scalar {v : Setting} (h : v.IsScalar) : Keyed v
  | list {xs : List Setting} (h : ∀ x ∈ xs, Keyed x) : Keyed (.list xs)
  | map {es : List (SettingKey × Setting)} (hkeys : OneEach es) (h : ∀ e ∈ es, Keyed e.2) :
    Keyed (.map es)

theorem keyed_map_iff {es : List (SettingKey × Setting)} :
    Keyed (map es) ↔ OneEach es ∧ ∀ e ∈ es, Keyed e.2 := by
  constructor
  · intro h
    cases h with
    | scalar h => exact h.elim
    | map hkeys h => exact ⟨hkeys, h⟩
  · exact fun h ↦ .map h.1 h.2

theorem keyed_list_iff {xs : List Setting} : Keyed (list xs) ↔ ∀ x ∈ xs, Keyed x := by
  constructor
  · intro h
    cases h with
    | scalar h => exact h.elim
    | list h => exact h
  · exact .list

theorem keyed_map_nil : Keyed (map []) := .map List.nodup_nil (by simp)

/-- Setting a key keeps a mapping keyed. -/
theorem Keyed.insert {es : List (SettingKey × Setting)} (h : Keyed (.map es)) (k : SettingKey)
    {v : Setting} (hv : Keyed v) : Keyed (.map (Setting.insert k v es)) := by
  obtain ⟨hkeys, hvalues⟩ := keyed_map_iff.mp h
  refine .map (hkeys.insert k v) fun e he ↦ ?_
  rcases mem_of_mem_insert he with hmem | ⟨heq, -⟩
  · exact hvalues e hmem
  · rwa [heq]

theorem Keyed.of_find? {es : List (SettingKey × Setting)} (h : Keyed (.map es)) {s : String}
    {v : Setting} (hv : find? (.text s) es = some v) : Keyed v :=
  (keyed_map_iff.mp h).2 _ (mem_of_find? hv)

end Setting

open Setting (Keyed)

/-! ## TOML -/

namespace Toml

theorem keyed_modifyTable {intoLists : Bool} {f : Entries → Option Entries}
    (hf : ∀ es es', Keyed (.map es) → f es = some es' → Keyed (.map es')) (key : Key) :
    ∀ es es', Keyed (.map es) → modifyTable intoLists f key es = some es' → Keyed (.map es') := by
  induction key with
  | nil => exact hf
  | cons k key ih =>
    intro es es' hes h
    rw [modifyTable] at h
    split at h
    · obtain ⟨below, hbelow, heq⟩ := Option.bind_eq_some_iff.mp h
      obtain rfl := Option.some.inj heq
      exact hes.insert _ (ih _ _ Setting.keyed_map_nil hbelow)
    · next inner hfind =>
      obtain ⟨below, hbelow, heq⟩ := Option.bind_eq_some_iff.mp h
      obtain rfl := Option.some.inj heq
      exact hes.insert _ (ih _ _ (hes.of_find? hfind) hbelow)
    · next xs hfind =>
      have hxs := Setting.keyed_list_iff.mp (hes.of_find? hfind)
      split at h
      · cases h
      · split at h
        · next inner hlast =>
          obtain ⟨below, hbelow, heq⟩ := Option.bind_eq_some_iff.mp h
          obtain rfl := Option.some.inj heq
          have hinner := ih _ _ (hxs _ (List.mem_of_getLast? hlast)) hbelow
          refine hes.insert _ (.list fun x hx ↦ ?_)
          rcases List.mem_append.mp hx with hx | hx
          · exact hxs x (List.dropLast_subset xs hx)
          · rwa [List.mem_singleton.mp hx]
        · cases h
    · cases h

theorem keyed_setNew {key : String} {v : Setting} (hv : Keyed v) (es es' : Entries)
    (hes : Keyed (.map es)) (h : setNew key v es = some es') : Keyed (.map es') := by
  rw [setNew] at h
  split at h
  · cases h
  · obtain rfl := Option.some.inj h
    exact hes.insert _ hv

theorem keyed_appendTable {key : String} (es es' : Entries) (hes : Keyed (.map es))
    (h : appendTable key es = some es') : Keyed (.map es') := by
  have hnew : Keyed (.list [.map []]) := .list fun x hx ↦ by
    rw [List.mem_singleton.mp hx]
    exact Setting.keyed_map_nil
  rw [appendTable] at h
  split at h
  · obtain rfl := Option.some.inj h
    exact hes.insert _ hnew
  · next xs hfind =>
    obtain rfl := Option.some.inj h
    have hxs := Setting.keyed_list_iff.mp (hes.of_find? hfind)
    refine hes.insert _ (.list fun x hx ↦ ?_)
    rcases List.mem_append.mp hx with hx | hx
    · exact hxs x hx
    · exact Setting.keyed_list_iff.mp hnew x hx
  · cases h

/-- What was found is a scalar. -/
private def FindsScalar (found : Option (Setting × List Char)) : Prop :=
  ∀ v rest, found = some (v, rest) → v.IsScalar

private theorem findsScalar_none : FindsScalar none := nofun

private theorem findsScalar_some {v : Setting} (h : v.IsScalar) (rest : List Char) :
    FindsScalar (some (v, rest)) := by
  intro w rest' heq
  obtain ⟨rfl, -⟩ := Prod.mk.inj (Option.some.inj heq)
  exact h

private theorem findsScalar_map {α : Type} {f : α → Setting × List Char}
    (hf : ∀ x, (f x).1.IsScalar) (found : Option α) : FindsScalar (found.map f) := by
  intro v rest h
  obtain ⟨x, -, hx⟩ := Option.map_eq_some_iff.mp h
  have hv := hf x
  rwa [hx] at hv

private theorem FindsScalar.orElse {first second : Option (Setting × List Char)}
    (hfirst : FindsScalar first) (hsecond : FindsScalar second) :
    FindsScalar (first <|> second) := by
  cases first with
  | none => exact hsecond
  | some p => exact hfirst

private theorem findsScalar_baseInteger? (base : Nat) (cs : List Char) :
    FindsScalar (baseInteger? base cs) := by
  simp only [baseInteger?]
  split
  · exact findsScalar_none
  · exact findsScalar_some (by trivial) _

private theorem findsScalar_decimal? (cs : List Char) : FindsScalar (decimal? cs) := by
  simp only [decimal?]
  -- the sign does not matter
  split <;>
  · split
    · exact findsScalar_none
    · split
      · exact findsScalar_some (by trivial) _
      · exact findsScalar_map (fun _ ↦ by trivial) _

private theorem findsScalar_number? (cs : List Char) : FindsScalar (number? cs) := by
  simp only [number?]
  refine FindsScalar.orElse ?_ (findsScalar_decimal? cs)
  split
  · exact findsScalar_baseInteger? 16 _
  · exact findsScalar_baseInteger? 2 _
  · exact findsScalar_baseInteger? 8 _
  · exact findsScalar_none

private theorem findsScalar_special? (cs : List Char) : FindsScalar (special? cs) := by
  intro v rest h
  obtain ⟨e, -, h⟩ := List.exists_of_findSome?_eq_some h
  exact findsScalar_map (f := fun rest ↦ (.float e.2, rest)) (fun _ ↦ trivial) _ v rest h

private theorem findsScalar_dateTime? (cs : List Char) : FindsScalar (dateTime? cs) := by
  intro v rest h
  rw [dateTime?] at h
  obtain ⟨⟨date, more⟩, -, h⟩ := Option.bind_eq_some_iff.mp h
  dsimp only at h
  split at h
  · exact findsScalar_some (by trivial) _ v rest h
  · exact findsScalar_some (by trivial) _ v rest h

private theorem findsScalar_scalar? (cs : List Char) : FindsScalar (scalar? cs) := by
  unfold scalar?
  split
  · exact findsScalar_map (fun _ ↦ by trivial) _
  · exact findsScalar_map (fun _ ↦ by trivial) _
  · exact findsScalar_map (fun _ ↦ by trivial) _
  · exact findsScalar_map (fun _ ↦ by trivial) _
  · exact findsScalar_some (by trivial) _
  · exact findsScalar_some (by trivial) _
  · split
    · next v rest hdate =>
      split
      · exact findsScalar_some (findsScalar_dateTime? _ v rest hdate) rest
      · exact findsScalar_none
    · refine FindsScalar.orElse (findsScalar_map (fun _ ↦ by trivial) _) ?_
      exact (findsScalar_number? _).orElse (findsScalar_special? _)

/-- What is read with a bound on the nesting is keyed. -/
private structure KeyedAt (fuel : Nat) : Prop where
  value : ∀ cs v rest, value? fuel cs = some (v, rest) → Keyed v
  items : ∀ cs xs rest, items? fuel cs = some (xs, rest) → Keyed (.list xs)
  fields : ∀ es complete cs first es' rest, Keyed (.map es) →
    fields? fuel es complete cs first = some (es', rest) → Keyed (.map es')

private theorem KeyedAt.value_succ {fuel : Nat} (ih : KeyedAt fuel) {cs rest : List Char}
    {v : Setting} (h : value? (fuel + 1) cs = some (v, rest)) : Keyed v := by
  unfold value? at h
  split at h
  · obtain ⟨_, -, h⟩ := Option.bind_eq_some_iff.mp h
    obtain ⟨⟨xs, _⟩, hxs, h⟩ := Option.bind_eq_some_iff.mp h
    obtain ⟨rfl, -⟩ := Prod.mk.inj (Option.some.inj h)
    exact ih.items _ _ _ hxs
  · obtain ⟨⟨es, _⟩, hes, h⟩ := Option.bind_eq_some_iff.mp h
    obtain ⟨rfl, -⟩ := Prod.mk.inj (Option.some.inj h)
    exact ih.fields _ _ _ _ _ _ Setting.keyed_map_nil hes
  · exact .scalar (findsScalar_scalar? cs v rest h)

private theorem KeyedAt.items_succ {fuel : Nat} (ih : KeyedAt fuel) {cs rest : List Char}
    {xs : List Setting} (h : items? (fuel + 1) cs = some (xs, rest)) : Keyed (.list xs) := by
  unfold items? at h
  split at h
  · obtain ⟨rfl, -⟩ := Prod.mk.inj (Option.some.inj h)
    exact .list (by simp)
  · obtain ⟨⟨x, _⟩, hx, h⟩ := Option.bind_eq_some_iff.mp h
    obtain ⟨_, -, h⟩ := Option.bind_eq_some_iff.mp h
    have hx := ih.value _ _ _ hx
    dsimp only at h
    split at h
    · obtain ⟨rfl, -⟩ := Prod.mk.inj (Option.some.inj h)
      exact .list (by simpa using hx)
    · obtain ⟨_, -, h⟩ := Option.bind_eq_some_iff.mp h
      obtain ⟨⟨ys, _⟩, hys, h⟩ := Option.bind_eq_some_iff.mp h
      obtain ⟨rfl, -⟩ := Prod.mk.inj (Option.some.inj h)
      have hys := Setting.keyed_list_iff.mp (ih.items _ _ _ hys)
      exact .list (List.forall_mem_cons.mpr ⟨hx, hys⟩)
    · cases h

private theorem KeyedAt.fields_succ {fuel : Nat} (ih : KeyedAt fuel) {es es' : Entries}
    {complete : List Key} {cs rest : List Char} {first : Bool} (hes : Keyed (.map es))
    (h : fields? (fuel + 1) es complete cs first = some (es', rest)) : Keyed (.map es') := by
  unfold fields? at h
  split at h
  · obtain ⟨rfl, -⟩ := Prod.mk.inj (Option.some.inj h)
    exact hes
  · obtain ⟨⟨key, _⟩, -, h⟩ := Option.bind_eq_some_iff.mp h
    obtain ⟨_, -, h⟩ := Option.bind_eq_some_iff.mp h
    obtain ⟨⟨v, _⟩, hv, h⟩ := Option.bind_eq_some_iff.mp h
    have hv := ih.value _ _ _ hv
    dsimp only at h
    split at h
    · cases h
    · obtain ⟨new, hnew, h⟩ := Option.bind_eq_some_iff.mp h
      have hnew := keyed_modifyTable (keyed_setNew hv) _ _ _ hes hnew
      split at h
      · obtain ⟨rfl, -⟩ := Prod.mk.inj (Option.some.inj h)
        exact hnew
      · exact ih.fields _ _ _ _ _ _ hnew h
      · cases h

private theorem keyedAt (fuel : Nat) : KeyedAt fuel := by
  induction fuel with
  | zero => exact ⟨nofun, nofun, nofun⟩
  | succ fuel ih =>
    exact ⟨fun _ _ _ ↦ ih.value_succ, fun _ _ _ ↦ ih.items_succ, fun _ _ _ _ _ _ ↦ ih.fields_succ⟩

private theorem keyed_openTable {d d' : Document} {key : Key} (hd : Keyed (.map d.entries))
    (h : d.openTable key = some d') : Keyed (.map d'.entries) := by
  rw [Document.openTable] at h
  split at h
  · cases h
  · obtain ⟨es, hes, heq⟩ := Option.bind_eq_some_iff.mp h
    obtain rfl := Option.some.inj heq
    refine keyed_modifyTable (fun es es' hes heq ↦ ?_) key _ es hd hes
    rwa [← Option.some.inj heq]

private theorem keyed_openElement {d d' : Document} {key : Key} (hd : Keyed (.map d.entries))
    (h : d.openElement key = some d') : Keyed (.map d'.entries) := by
  rw [Document.openElement] at h
  split at h
  · cases h
  · obtain ⟨es, hes, heq⟩ := Option.bind_eq_some_iff.mp h
    obtain rfl := Option.some.inj heq
    exact keyed_modifyTable keyed_appendTable _ _ es hd hes

private theorem keyed_assign {d d' : Document} {key : Key} {v : Setting}
    (hd : Keyed (.map d.entries)) (hv : Keyed v) (h : d.assign key v = some d') :
    Keyed (.map d'.entries) := by
  simp only [Document.assign] at h
  split at h
  · cases h
  · obtain ⟨es, hes, heq⟩ := Option.bind_eq_some_iff.mp h
    obtain rfl := Option.some.inj heq
    exact keyed_modifyTable (keyed_setNew hv) _ _ es hd hes

/-- One statement keeps a document keyed. -/
theorem keyed_statement {d d' : Document} {cs rest : List Char} (hd : Keyed (.map d.entries))
    (h : d.statement cs = some (d', rest)) : Keyed (.map d'.entries) := by
  unfold Document.statement at h
  split at h
  · obtain ⟨⟨key, _⟩, -, h⟩ := Option.bind_eq_some_iff.mp h
    obtain ⟨opened, hopened, h⟩ := Option.bind_eq_some_iff.mp h
    obtain ⟨_, -, h⟩ := Option.bind_eq_some_iff.mp h
    obtain ⟨_, -, h⟩ := Option.bind_eq_some_iff.mp h
    obtain ⟨rfl, -⟩ := Prod.mk.inj (Option.some.inj h)
    exact keyed_openElement (d := d.settle) hd hopened
  · obtain ⟨⟨key, _⟩, -, h⟩ := Option.bind_eq_some_iff.mp h
    obtain ⟨opened, hopened, h⟩ := Option.bind_eq_some_iff.mp h
    obtain ⟨_, -, h⟩ := Option.bind_eq_some_iff.mp h
    obtain ⟨rfl, -⟩ := Prod.mk.inj (Option.some.inj h)
    exact keyed_openTable (d := d.settle) hd hopened
  · obtain ⟨rfl, -⟩ := Prod.mk.inj (Option.some.inj h)
    exact hd
  · obtain ⟨⟨key, _⟩, -, h⟩ := Option.bind_eq_some_iff.mp h
    obtain ⟨_, -, h⟩ := Option.bind_eq_some_iff.mp h
    obtain ⟨⟨v, _⟩, hv, h⟩ := Option.bind_eq_some_iff.mp h
    obtain ⟨assigned, hassigned, h⟩ := Option.bind_eq_some_iff.mp h
    obtain ⟨rfl, -⟩ := Prod.mk.inj (Option.some.inj h)
    exact keyed_assign hd ((keyedAt _).value _ _ _ hv) hassigned

private theorem keyed_statements (fuel : Nat) : ∀ {d d' : Document} {cs : List Char},
    Keyed (.map d.entries) → Document.statements fuel d cs = some d' → Keyed (.map d'.entries) := by
  induction fuel with
  | zero => exact nofun
  | succ fuel ih =>
    intro d d' cs hd h
    unfold Document.statements at h
    split at h
    · obtain rfl := Option.some.inj h
      exact hd
    · exact ih hd h
    · obtain ⟨⟨next, _⟩, hnext, h⟩ := Option.bind_eq_some_iff.mp h
      obtain ⟨_, -, h⟩ := Option.bind_eq_some_iff.mp h
      have hnext := keyed_statement hd hnext
      split at h
      · obtain rfl := Option.some.inj h
        exact hnext
      · exact ih hnext h
      · cases h

theorem keyed_read? {s : String} {es : Entries} (h : read? s = some es) : Keyed (.map es) := by
  obtain ⟨d, hd, rfl⟩ := Option.map_eq_some_iff.mp h
  exact keyed_statements _ Setting.keyed_map_nil hd

end Toml

/-! ## YAML -/

namespace Yaml

private theorem keyed_foldl_insert (entries : List (SettingKey × Setting))
    (h : ∀ e ∈ entries, Keyed e.2) : ∀ es, Keyed (.map es) →
      Keyed (.map (entries.foldl (fun es e ↦ Setting.insert e.1 e.2 es) es)) := by
  induction entries with
  | nil => exact fun es hes ↦ hes
  | cons e entries ih =>
    obtain ⟨he, hrest⟩ := List.forall_mem_cons.mp h
    exact fun es hes ↦ ih hrest _ (hes.insert e.1 he)

theorem keyed_collect {entries : List (SettingKey × Setting)} (h : ∀ e ∈ entries, Keyed e.2) :
    Keyed (.map (collect entries)) := keyed_foldl_insert entries h [] Setting.keyed_map_nil

/-- A value that comes out is a scalar. -/
private def GivesScalar (result : Except Fault Setting) : Prop := ∀ v, result = .ok v → v.IsScalar

private theorem givesScalar_error (e : Fault) : GivesScalar (.error e) := nofun

private theorem givesScalar_ok {v : Setting} (h : v.IsScalar) : GivesScalar (.ok v) := by
  intro w hw
  rwa [← Except.ok.inj hw]

private theorem givesScalar_bind {α : Type} (m : Except Fault α) {f : α → Except Fault Setting}
    (h : ∀ x, GivesScalar (f x)) : GivesScalar (m >>= f) := by
  intro v hv
  obtain ⟨x, -, hx⟩ := bind_eq_ok.mp hv
  exact h x v hx

private theorem givesScalar_booleanOf (text : String) : GivesScalar (booleanOf text) := by
  simp only [booleanOf]
  split
  · exact givesScalar_ok (by trivial)
  · split
    · exact givesScalar_ok (by trivial)
    · exact givesScalar_error _

private theorem givesScalar_integerOf (text : String) : GivesScalar (integerOf text) := by
  have hint : ∀ n : Int, GivesScalar (pure (.int n)) := fun n ↦ givesScalar_ok (by trivial)
  simp only [integerOf]
  split
  · exact givesScalar_error _
  · split
    · exact hint _
    · exact givesScalar_bind _ fun n ↦ hint _
    · exact givesScalar_bind _ fun n ↦ hint _
    · exact givesScalar_error _
    · exact givesScalar_bind _ fun n ↦ hint _
    · split
      · exact givesScalar_bind _ fun parts ↦ hint _
      · exact givesScalar_bind _ fun n ↦ hint _

private theorem givesScalar_floatOf (text : String) : GivesScalar (floatOf text) := by
  simp only [floatOf]
  split
  · exact givesScalar_error _
  · split
    · exact givesScalar_ok (by trivial)
    · split
      · exact givesScalar_ok (by trivial)
      · split
        · exact givesScalar_bind _ fun parts ↦ givesScalar_ok (by trivial)
        · exact givesScalar_bind _ fun x ↦ givesScalar_ok (by trivial)

private theorem givesScalar_timestampOf (text : String) : GivesScalar (timestampOf text) := by
  delta timestampOf
  dsimp only
  split
  · exact givesScalar_error _
  · rw [Stamp.toSetting]
    split
    · split
      · exact givesScalar_error _
      · exact givesScalar_ok (by trivial)
    · split
      · exact givesScalar_error _
      · exact givesScalar_ok (by trivial)

private theorem givesScalar_binaryOf (text : String) : GivesScalar (binaryOf text) := by
  rw [binaryOf]
  split
  · exact givesScalar_error _
  · split
    · exact givesScalar_ok (by trivial)
    · exact givesScalar_error _

private theorem givesScalar_scalarOf (kind : Kind) (text : String) :
    GivesScalar (scalarOf kind text) := by
  unfold scalarOf
  split
  · exact givesScalar_ok (by trivial)
  · exact givesScalar_booleanOf text
  · exact givesScalar_integerOf text
  · exact givesScalar_floatOf text
  · exact givesScalar_timestampOf text
  · exact givesScalar_binaryOf text
  · exact givesScalar_ok (by trivial)
  · exact givesScalar_error _

mutual

private theorem keyed_valueOf : (n : Node) → ∀ {v}, valueOf n = .ok v → Keyed v
  | .scalar kind text, v, h => by
    rw [valueOf] at h
    exact .scalar (givesScalar_scalarOf kind text v h)
  | .sequence kind items, v, h => by
    unfold valueOf at h
    split at h
    · obtain ⟨xs, hxs, h⟩ := bind_eq_ok.mp h
      obtain rfl := Except.ok.inj h
      exact .list (keyed_valuesOf items hxs)
    · obtain ⟨xs, hxs, h⟩ := bind_eq_ok.mp h
      obtain rfl := Except.ok.inj h
      exact .list (keyed_pairsOf items hxs)
    · obtain ⟨xs, hxs, h⟩ := bind_eq_ok.mp h
      obtain rfl := Except.ok.inj h
      exact .list (keyed_pairsOf items hxs)
    · cases h
  | .mapping kind entries, v, h => by
    unfold valueOf at h
    split at h
    · obtain ⟨⟨merged, own⟩, hentries, h⟩ := bind_eq_ok.mp h
      obtain rfl := Except.ok.inj h
      exact keyed_collect (keyed_entriesOf entries hentries)
    · obtain ⟨⟨merged, own⟩, hentries, h⟩ := bind_eq_ok.mp h
      obtain rfl := Except.ok.inj h
      exact .scalar (by trivial)
    · split at h
      · exact .scalar (givesScalar_scalarOf _ _ v h)
      · cases h

private theorem keyed_valuesOf : (ns : List Node) → ∀ {xs}, valuesOf ns = .ok xs →
    ∀ x ∈ xs, Keyed x
  | [], xs, h => by
    obtain rfl := Except.ok.inj h
    simp
  | n :: ns, xs, h => by
    obtain ⟨x, hx, h⟩ := bind_eq_ok.mp h
    obtain ⟨ys, hys, h⟩ := bind_eq_ok.mp h
    obtain rfl := Except.ok.inj h
    exact List.forall_mem_cons.mpr ⟨keyed_valueOf n hx, keyed_valuesOf ns hys⟩

private theorem keyed_pairsOf : (ns : List Node) → ∀ {xs}, pairsOf ns = .ok xs →
    ∀ x ∈ xs, Keyed x
  | [], xs, h => by
    obtain rfl := Except.ok.inj h
    simp
  | .mapping kind [(k, v)] :: ns, xs, h => by
    obtain ⟨x, hx, h⟩ := bind_eq_ok.mp h
    obtain ⟨y, hy, h⟩ := bind_eq_ok.mp h
    obtain ⟨ys, hys, h⟩ := bind_eq_ok.mp h
    obtain rfl := Except.ok.inj h
    refine List.forall_mem_cons.mpr ⟨.list ?_, keyed_pairsOf ns hys⟩
    have hx := keyed_valueOf k hx
    have hy := keyed_valueOf v hy
    simp [hx, hy]
  | .scalar _ _ :: _, xs, h => by cases h
  | .sequence _ _ :: _, xs, h => by cases h
  | .mapping _ [] :: _, xs, h => by cases h
  | .mapping _ (_ :: _ :: _) :: _, xs, h => by cases h

private theorem keyed_entriesOf : (ns : List (Node × Node)) → ∀ {merged own},
    entriesOf ns = .ok (merged, own) → ∀ e ∈ merged ++ own, Keyed e.2
  | [], merged, own, h => by
    obtain ⟨rfl, rfl⟩ := Prod.mk.inj (Except.ok.inj h)
    simp
  | (k, v) :: ns, merged, own, h => by
    unfold entriesOf at h
    split at h
    · obtain ⟨first, hfirst, h⟩ := bind_eq_ok.mp h
      obtain ⟨⟨merged', own'⟩, hrest, h⟩ := bind_eq_ok.mp h
      obtain ⟨rfl, rfl⟩ := Prod.mk.inj (Except.ok.inj h)
      have hfirst := keyed_mergedOf v hfirst
      have hrest := keyed_entriesOf ns hrest
      rw [List.append_assoc]
      exact List.forall_mem_append.mpr ⟨hfirst, hrest⟩
    · -- however the key is found, the value is that of the node
      dsimp only at h
      split at h <;>
      · obtain ⟨key, -, h⟩ := bind_eq_ok.mp h
        split at h
        · cases h
        · obtain ⟨value, hvalue, h⟩ := bind_eq_ok.mp h
          obtain ⟨⟨merged', own'⟩, hrest, h⟩ := bind_eq_ok.mp h
          obtain ⟨rfl, rfl⟩ := Prod.mk.inj (Except.ok.inj h)
          have hvalue := keyed_valueOf v hvalue
          obtain ⟨hmerged, hown⟩ := List.forall_mem_append.mp (keyed_entriesOf ns hrest)
          exact List.forall_mem_append.mpr ⟨hmerged, List.forall_mem_cons.mpr ⟨hvalue, hown⟩⟩

private theorem keyed_mergedOf : (n : Node) → ∀ {es}, mergedOf n = .ok es → ∀ e ∈ es, Keyed e.2
  | .mapping _ entries, es, h => by
    obtain ⟨⟨merged, own⟩, hentries, h⟩ := bind_eq_ok.mp h
    obtain rfl := Except.ok.inj h
    exact keyed_entriesOf entries hentries
  | .sequence _ items, es, h => keyed_mergedItems items h
  | .scalar _ _, es, h => by cases h

private theorem keyed_mergedItems : (ns : List Node) → ∀ {es}, mergedItems ns = .ok es →
    ∀ e ∈ es, Keyed e.2
  | [], es, h => by
    obtain rfl := Except.ok.inj h
    simp
  | .mapping _ entries :: ns, es, h => by
    obtain ⟨⟨merged, own⟩, hentries, h⟩ := bind_eq_ok.mp h
    obtain ⟨rest, hrest, h⟩ := bind_eq_ok.mp h
    obtain rfl := Except.ok.inj h
    have hrest := keyed_mergedItems ns hrest
    have hentries := keyed_entriesOf entries hentries
    rw [List.append_assoc]
    exact List.forall_mem_append.mpr ⟨hrest, hentries⟩
  | .scalar _ _ :: _, es, h => by cases h
  | .sequence _ _ :: _, es, h => by cases h

end

theorem keyed_read {s : String} {v : Setting} (h : read s = .ok v) : Keyed v := by
  obtain ⟨tokens, -, h⟩ := bind_eq_ok.mp h
  obtain ⟨root, -, h⟩ := bind_eq_ok.mp h
  cases root with
  | none =>
    obtain rfl := Except.ok.inj h
    exact .scalar (by trivial)
  | some root =>
    obtain ⟨w, hw, h⟩ := bind_eq_ok.mp h
    split at h
    · cases h
    · obtain rfl := Except.ok.inj h
      exact keyed_valueOf root.node hw

end Yaml

/-! ## Files -/

namespace ConfigFile

private theorem keyed_readToml {path : Path} {bytes : List UInt8} {v : Setting}
    (h : readToml path bytes = .ok v) : Keyed v := by
  rw [readToml] at h
  split at h
  · cases h
  · split at h
    · next es hes =>
      obtain rfl := Except.ok.inj h
      exact Toml.keyed_read? hes
    · cases h

private theorem keyed_readYaml {path : Path} {bytes : List UInt8} {v : Setting}
    (h : readYaml path bytes = .ok v) : Keyed v := by
  rw [readYaml] at h
  split at h
  · cases h
  · split at h
    · next w hw =>
      obtain rfl := Except.ok.inj h
      exact Yaml.keyed_read hw
    · cases h
    · cases h

private theorem keyed_readValue {path : Path} {bytes : List UInt8} {v : Setting}
    (h : readValue path bytes = .ok v) : Keyed v := by
  rw [readValue] at h
  split at h
  · exact keyed_readYaml h
  · exact keyed_readToml h

private theorem keyed_entriesOf {v : Setting} {path : Path} {es : List (SettingKey × Setting)}
    (h : entriesOf path v = .ok es) (hv : Keyed v) : Keyed (.map es) := by
  cases v with
  | null =>
    obtain rfl := Except.ok.inj h
    exact Setting.keyed_map_nil
  | map es' =>
    obtain rfl := Except.ok.inj h
    exact hv
  | _ => cases h

theorem keyed_entries {t : FileNode} {path : Path} {required : Bool}
    {es : List (SettingKey × Setting)} (h : entries t path required = .ok es) : Keyed (.map es) := by
  obtain ⟨present, -, h⟩ := bind_eq_ok.mp h
  split at h
  · obtain ⟨bytes, -, h⟩ := bind_eq_ok.mp h
    obtain ⟨v, hv, h⟩ := bind_eq_ok.mp h
    exact keyed_entriesOf h (keyed_readValue hv)
  · split at h
    · cases h
    · obtain rfl := Except.ok.inj h
      exact Setting.keyed_map_nil

end ConfigFile

/-- **Files hold each key once**, whatever they say. -/
theorem Config.Sources.keyed_fileEntries {s : Sources} {t : FileNode} {process : Environment}
    {cwd : List String} {es : List (SettingKey × Setting)}
    (h : s.fileEntries t process cwd = .ok es) : Keyed (.map es) := by
  obtain ⟨file, -, h⟩ := bind_eq_ok.mp h
  cases file with
  | none =>
    obtain rfl := Except.ok.inj h
    exact Setting.keyed_map_nil
  | some path => exact ConfigFile.keyed_entries h

end FeatureAtlas
