import FeatureAtlas.Json.Printer
import FeatureAtlas.Proofs.Json.Numeral
import FeatureAtlas.Proofs.Json.Reading
import FeatureAtlas.Proofs.Table

/-!
# Printed values are read back

The text of a value is a document of the grammar: each string is written by glyphs, each number by a numeral,
what a layout puts between the tokens is a gap, and a value is a tree of these. So printed text needs no reader
of its own. Two kinds of values have one reading in a text: values of strings, arrays and objects in the
indented layout, and plain values, which hold finite doubles and different keys, in the compact one. As it is
read back, the compact text of a plain value tells it from all others.
-/

namespace FeatureAtlas

namespace Json

/-! ## Strings -/

theorem hex4?_hexPadded : ∀ n < 32, hex4? (Text.hexPadded 4 n) = some n := by decide

theorem isPair_of_lt {n : Nat} (h : n < 32) (m : Nat) : Glyph.isPair n m = false := by
  have hlow : ¬ 0xd800 ≤ n := by omega
  simp [Glyph.isPair, hlow]

/-- Each character is written as one glyph that stands for it, whatever follows. -/
theorem exists_glyph (c : Char) :
    ∃ g : Glyph, g.text = escapeChar c ∧ ∀ gs, Glyph.decode (g :: gs) = c :: Glyph.decode gs := by
  rw [escapeChar]
  simp only [beq_iff_eq]
  -- the one-letter escapes in their order, then other control characters, then all else
  iterate 7
    split
    · next hc =>
      subst hc
      exact ⟨.escape _ _ rfl, rfl, fun _ ↦ rfl⟩
  next hquote hback _ _ _ _ _ =>
    split
    · next hcontrol =>
      obtain ⟨a, b, x, y, hhex⟩ : ∃ a b x y, Text.hexPadded 4 c.toNat = [a, b, x, y] := ⟨_, _, _, _, rfl⟩
      have hvalue := hex4?_hexPadded c.toNat hcontrol
      rw [hhex] at hvalue ⊢
      refine ⟨.unit a b x y c.toNat hvalue, rfl, fun gs ↦ ?_⟩
      have hchar : unitChar c.toNat = c := by
        have hlow : ¬ 0xd800 ≤ c.toNat := by omega
        simp [unitChar, hlow]
      rw [Glyph.decode_unit_cons hvalue fun _ _ _ _ m _ _ _ ↦ isPair_of_lt hcontrol m, hchar]
    · next hcontrol =>
      exact ⟨.plain c ⟨hquote, hback, Nat.le_of_not_lt hcontrol⟩, rfl, fun _ ↦ rfl⟩

/-- A string is written by glyphs that stand for it. -/
theorem exists_glyphs (cs : List Char) :
    ∃ gs, Glyph.textAll gs = cs.flatMap escapeChar ∧ Glyph.decode gs = cs := by
  induction cs with
  | nil => exact ⟨[], rfl, rfl⟩
  | cons c cs ih =>
    obtain ⟨gs, htext, hdecode⟩ := ih
    obtain ⟨g, hg, hvalue⟩ := exists_glyph c
    refine ⟨g :: gs, ?_, ?_⟩
    · rw [Glyph.textAll_cons, hg, htext, List.flatMap_cons]
    · rw [hvalue, hdecode]

theorem exists_glyphs_literal (s : String) :
    ∃ gs, Glyph.quoted gs = literal s ∧ String.ofList (Glyph.decode gs) = s := by
  obtain ⟨gs, htext, hdecode⟩ := exists_glyphs s.toList
  refine ⟨gs, ?_, ?_⟩
  · rw [Glyph.quoted, htext, literal]
  · rw [hdecode, String.ofList_toList]

/-! ## Layouts -/

/-- The text is written by a plain tree of the value. -/
def IsText (cs : List Char) (v : Json) : Prop :=
  ∃ t : Tree, t.text = cs ∧ t.value = v ∧ t.regap Gap.plain = t

section

variable {text : Json → List Char} {opening sep colon close : Gap}

/-- Elements behind one another, up to the gap in front of the closing bracket. -/
theorem exists_items (hsep : sep.plain = sep) (hclose : close.plain = close) {x : Json} {xs : List Json}
    (h : ∀ y ∈ x :: xs, IsText (text y) y) :
    ∃ items : Items,
      items.text = (',' :: sep.text).intercalate ((x :: xs).map text) ++ close.text ∧
      items.values = x :: xs ∧ items.regap Gap.plain = items := by
  obtain ⟨t, htext, hvalue, hplain⟩ := h x List.mem_cons_self
  -- along the elements behind the first, whose tree is carried along
  induction xs generalizing x t with
  | nil =>
    refine ⟨.last t close none, ?_, ?_, ?_⟩
    · rw [Items.text, htext, trailingText, List.append_nil, List.map_singleton, List.intercalate_singleton]
    · rw [Items.values, hvalue]
    · rw [Items.regap, hplain, Option.getD_none, List.append_nil, hclose]
  | cons y ys ih =>
    have hrest := fun z hz ↦ h z (List.mem_cons_of_mem x hz)
    obtain ⟨u, hutext, huvalue, huplain⟩ := hrest y List.mem_cons_self
    obtain ⟨items, hitems, hvalues, hitemsPlain⟩ := ih hrest u hutext huvalue huplain
    refine ⟨.more t [] sep items, ?_, ?_, ?_⟩
    · rw [Items.text, htext, hitems]
      simp [Gap.text, List.intercalate_cons_cons]
    · rw [Items.values, hvalue, hvalues]
    · rw [Items.regap, hplain, hsep, hitemsPlain]
      rfl

/-- An array with its elements behind one another. -/
theorem isText_arr (hopening : opening.plain = opening) (hsep : sep.plain = sep)
    (hclose : close.plain = close) {x : Json} {xs : List Json} (h : ∀ y ∈ x :: xs, IsText (text y) y) :
    IsText ('[' :: (opening.text ++ ((',' :: sep.text).intercalate ((x :: xs).map text) ++ close.text ++
      [']']))) (.arr (x :: xs)) := by
  obtain ⟨items, htext, hvalues, hitems⟩ := exists_items hsep hclose h
  refine ⟨.array opening items, ?_, ?_, ?_⟩
  · rw [Tree.text, htext]
  · rw [Tree.value, hvalues]
  · rw [Tree.regap, hopening, hitems]

/-- The text of a field. -/
def fieldText (text : Json → List Char) (colon : Gap) (f : String × Json) : List Char :=
  literal f.1 ++ ':' :: (colon.text ++ text f.2)

/-- The key of a field is written with a gap behind its colon. -/
theorem exists_key_literal (hcolon : colon.plain = colon) (name : String) :
    ∃ k : Key, k.text = literal name ++ ':' :: colon.text ∧ k.name = name ∧ k.regap Gap.plain = k := by
  obtain ⟨gs, htext, hname⟩ := exists_glyphs_literal name
  refine ⟨⟨gs, [], colon⟩, ?_, hname, ?_⟩
  · rw [Key.text, htext]
    rfl
  · rw [Key.regap, hcolon]
    rfl

/-- Fields behind one another, up to the gap in front of the closing brace. -/
theorem exists_fields (hcolon : colon.plain = colon) (hsep : sep.plain = sep) (hclose : close.plain = close)
    {f : String × Json} {fs : Table Json} (h : ∀ e ∈ f :: fs, IsText (text e.2) e.2) :
    ∃ fields : Fields,
      fields.text = (',' :: sep.text).intercalate ((f :: fs).map (fieldText text colon)) ++ close.text ∧
      fields.entries = f :: fs ∧ fields.regap Gap.plain = fields := by
  obtain ⟨t, htext, hvalue, hplain⟩ := h f List.mem_cons_self
  obtain ⟨k, hkey, hname, hkplain⟩ := exists_key_literal hcolon f.1
  induction fs generalizing f t k with
  | nil =>
    refine ⟨.last k t close none, ?_, ?_, ?_⟩
    · rw [Fields.text, hkey, htext, trailingText, List.append_nil, List.map_singleton,
        List.intercalate_singleton, fieldText]
      simp
    · rw [Fields.entries, hname, hvalue]
    · rw [Fields.regap, hkplain, hplain, Option.getD_none, List.append_nil, hclose]
  | cons e es ih =>
    have hrest := fun z hz ↦ h z (List.mem_cons_of_mem f hz)
    obtain ⟨u, hutext, huvalue, huplain⟩ := hrest e List.mem_cons_self
    obtain ⟨l, hl, hlname, hlplain⟩ := exists_key_literal hcolon e.1
    obtain ⟨fields, hfields, hentries, hfieldsPlain⟩ :=
      ih hrest u hutext huvalue huplain l hl hlname hlplain
    refine ⟨.more k t [] sep fields, ?_, ?_, ?_⟩
    · rw [Fields.text, hkey, htext, hfields]
      simp [Gap.text, fieldText, List.intercalate_cons_cons]
    · rw [Fields.entries, hname, hvalue, hentries]
    · rw [Fields.regap, hkplain, hplain, hsep, hfieldsPlain]
      rfl

/-- An object with its fields behind one another. -/
theorem isText_obj (hopening : opening.plain = opening) (hcolon : colon.plain = colon)
    (hsep : sep.plain = sep) (hclose : close.plain = close) {f : String × Json} {fs : Table Json}
    (hkeys : Table.NodupKeys (f :: fs)) (h : ∀ e ∈ f :: fs, IsText (text e.2) e.2) :
    IsText ('{' :: (opening.text ++ ((',' :: sep.text).intercalate ((f :: fs).map (fieldText text colon)) ++
      close.text ++ ['}']))) (.obj (f :: fs)) := by
  obtain ⟨fields, htext, hentries, hfields⟩ := exists_fields hcolon hsep hclose h
  refine ⟨.object opening fields, ?_, ?_, ?_⟩
  · rw [Tree.text, htext]
  · rw [Tree.value, hentries, Table.ofEntries_of_nodupKeys hkeys]
  · rw [Tree.regap, hopening, hfields]

end

theorem isText_str (s : String) : IsText (literal s) (.str s) := by
  obtain ⟨gs, htext, hvalue⟩ := exists_glyphs_literal s
  refine ⟨.scalar (.string gs), ?_, ?_, rfl⟩
  · rw [Tree.text, Scalar.text, htext]
  · rw [Tree.value, Scalar.value, hvalue]

/-- A text that a tree writes is read, also in front of blanks. -/
theorem IsText.read_append {cs : List Char} {v : Json} (h : IsText cs v) {after : Gap}
    (hafter : after.plain = after) : read (String.ofList (cs ++ after.text)) = .ok v := by
  obtain ⟨t, htext, hvalue, hplain⟩ := h
  let d : Document := ⟨[], t, after, none, by simp⟩
  have hd : d.plain = d := by
    rw [Document.plain, Document.regap]
    simp only [d, hplain, hafter]
    rfl
  have hsource : d.plain.source = String.ofList (cs ++ after.text) := by
    rw [hd]
    simp [d, Document.source, Document.text, Gap.text, htext]
  rw [← hsource, read_plain d]
  exact congrArg Except.ok hvalue

/-! ## The indented layout -/

/-- A value made of strings, arrays and objects with different keys. -/
inductive Textual : Json → Prop
  | str (s : String) : Textual (.str s)
  | arr {xs : List Json} (h : ∀ x ∈ xs, Textual x) : Textual (.arr xs)
  | obj {fields : Table Json} (hkeys : fields.NodupKeys) (h : ∀ f ∈ fields, Textual f.2) :
      Textual (.obj fields)

theorem exists_gap_newline (step depth : Nat) :
    ∃ g : Gap, g.text = newline step depth ∧ g.plain = g := by
  refine exists_gap fun c hc ↦ ?_
  rw [newline, List.mem_cons] at hc
  rcases hc with rfl | hc
  · rfl
  · rw [List.eq_of_mem_replicate hc]
    rfl

theorem indentedItems_eq (step depth : Nat) : ∀ xs, indentedItems step depth xs =
    (',' :: newline step depth).intercalate (xs.map (indentedChars step depth))
  | [] => rfl
  | [x] => by rw [indentedItems, List.map_singleton, List.intercalate_singleton]
  | x :: y :: rest => by
    rw [indentedItems, indentedItems_eq step depth (y :: rest)]
    simp [List.intercalate_cons_cons]

theorem indentedFields_eq (step depth : Nat) : ∀ fs : Table Json, indentedFields step depth fs =
    (',' :: newline step depth).intercalate
      (fs.map (fieldText (indentedChars step depth) [.blank ' ' rfl]))
  | [] => rfl
  | [(k, v)] => by
    rw [indentedFields, List.map_singleton, List.intercalate_singleton]
    rfl
  | (k, v) :: f :: rest => by
    rw [indentedFields, indentedFields_eq step depth (f :: rest)]
    simp [List.intercalate_cons_cons, fieldText, Gap.text, Filler.text]

-- Stated here, since the generated equations take the texts of the names apart.
theorem indentedChars_arr (step depth : Nat) (x : Json) (xs : List Json) :
    indentedChars step depth (.arr (x :: xs)) = '[' :: newline step (depth + 1) ++
      indentedItems step (depth + 1) (x :: xs) ++ newline step depth ++ [']'] := rfl

theorem indentedChars_obj (step depth : Nat) (f : String × Json) (fs : Table Json) :
    indentedChars step depth (.obj (f :: fs)) = '{' :: newline step (depth + 1) ++
      indentedFields step (depth + 1) (f :: fs) ++ newline step depth ++ ['}'] := rfl

/-- The indented text of a textual value is written by a tree of that value. -/
theorem Textual.isText {v : Json} (h : v.Textual) (step depth : Nat) :
    IsText (indentedChars step depth v) v := by
  induction h generalizing depth with
  | str s => exact isText_str s
  | @arr xs _ ih =>
    cases xs with
    | nil => exact ⟨.emptyArray [], rfl, rfl, rfl⟩
    | cons x xs =>
      obtain ⟨sep, hsep, hsepPlain⟩ := exists_gap_newline step (depth + 1)
      obtain ⟨close, hclose, hclosePlain⟩ := exists_gap_newline step depth
      have htree := isText_arr hsepPlain hsepPlain hclosePlain fun y hy ↦ ih y hy (depth + 1)
      rw [hsep, hclose, ← indentedItems_eq] at htree
      rw [indentedChars_arr]
      simpa using htree
  | @obj fields hkeys _ ih =>
    cases fields with
    | nil => exact ⟨.emptyObject [], rfl, rfl, rfl⟩
    | cons f fs =>
      obtain ⟨sep, hsep, hsepPlain⟩ := exists_gap_newline step (depth + 1)
      obtain ⟨close, hclose, hclosePlain⟩ := exists_gap_newline step depth
      have hcolon : Gap.plain [.blank ' ' rfl] = [.blank ' ' rfl] := rfl
      have htree := isText_obj hsepPlain hcolon hsepPlain hclosePlain hkeys
        fun e he ↦ ih e he (depth + 1)
      rw [hsep, hclose, ← indentedFields_eq] at htree
      rw [indentedChars_obj]
      simpa using htree

/-- **The indented text of a textual value is read back**, also with a line break behind it. -/
theorem read_indented {v : Json} (h : v.Textual) (step : Nat) :
    read (indented step v ++ "\n") = .ok v := by
  have hbreak : Gap.plain [.blank '\n' rfl] = [.blank '\n' rfl] := rfl
  have hsource : indented step v ++ "\n" =
      String.ofList (indentedChars step 0 v ++ Gap.text [.blank '\n' rfl]) := by
    refine String.toList_injective ?_
    simp [indented, Gap.text, Filler.text]
  rw [hsource]
  exact (h.isText step 0).read_append hbreak

/-! ## The compact layout -/

/-- A value of plain JSON: its doubles are finite, and the keys of an object are different. -/
inductive Plain : Json → Prop
  | null : Plain .null
  | bool (b : Bool) : Plain (.bool b)
  | int (n : Int) : Plain (.int n)
  | float {negative : Bool} {m : Nat} {e : Int} (h : (Binary64.finite negative m e).IsCanonical) :
      Plain (.float (.finite negative m e))
  | str (s : String) : Plain (.str s)
  | arr {xs : List Json} (h : ∀ x ∈ xs, Plain x) : Plain (.arr xs)
  | obj {fields : Table Json} (hkeys : fields.NodupKeys) (h : ∀ f ∈ fields, Plain f.2) :
      Plain (.obj fields)

theorem compactItems_eq : ∀ xs, compactItems xs = [','].intercalate (xs.map compactChars)
  | [] => rfl
  | [x] => by rw [compactItems, List.map_singleton, List.intercalate_singleton]
  | x :: y :: rest => by
    rw [compactItems, compactItems_eq (y :: rest)]
    simp [List.intercalate_cons_cons]

theorem compactFields_eq : ∀ fs : Table Json,
    compactFields fs = [','].intercalate (fs.map (fieldText compactChars []))
  | [] => rfl
  | [(k, v)] => by
    rw [compactFields, List.map_singleton, List.intercalate_singleton]
    rfl
  | (k, v) :: f :: rest => by
    rw [compactFields, compactFields_eq (f :: rest)]
    simp [List.intercalate_cons_cons, fieldText, Gap.text]

theorem isText_name {name : String} {v : Json} (h : (name, v) ∈ names) : IsText name.toList v :=
  ⟨.scalar (.name name v h), rfl, rfl, rfl⟩

theorem isText_numeral {cs : List Char} {v : Json} (h : ∃ n : Numeral, n.text = cs ∧ n.value = v) :
    IsText cs v := by
  obtain ⟨n, htext, hvalue⟩ := h
  exact ⟨.scalar (.number n), htext, hvalue, rfl⟩

/-- The compact text of a plain value is written by a tree of that value. -/
theorem Plain.isText {v : Json} (h : v.Plain) : IsText (compactChars v) v := by
  have hempty : Gap.plain [] = [] := rfl
  have hnothing : Gap.text [] = [] := rfl
  induction h with
  | null =>
    have hname : ("null", Json.null) ∈ names := List.mem_cons_self
    exact isText_name hname
  | bool b =>
    cases b with
    | true =>
      have hname : ("true", Json.bool true) ∈ names := by simp [names]
      exact isText_name hname
    | false =>
      have hname : ("false", Json.bool false) ∈ names := by simp [names]
      exact isText_name hname
  | int n => exact isText_numeral (exists_numeral_int n)
  | float hcanonical => exact isText_numeral (exists_numeral_float hcanonical)
  | str s => exact isText_str s
  | @arr xs _ ih =>
    cases xs with
    | nil => exact ⟨.emptyArray [], rfl, rfl, rfl⟩
    | cons x xs =>
      have htree := isText_arr hempty hempty hempty ih
      rw [hnothing, ← compactItems_eq, List.nil_append, List.append_nil] at htree
      exact htree
  | @obj fields hkeys _ ih =>
    cases fields with
    | nil => exact ⟨.emptyObject [], rfl, rfl, rfl⟩
    | cons f fs =>
      have htree := isText_obj hempty hempty hempty hempty hkeys ih
      rw [hnothing, ← compactFields_eq, List.nil_append, List.append_nil] at htree
      exact htree

/-- **The compact text of a plain value is read back.** -/
theorem read_compact {v : Json} (h : v.Plain) : read (compact v) = .ok v := by
  have hempty : Gap.plain [] = [] := rfl
  have hread := h.isText.read_append hempty
  have hnothing : Gap.text [] = [] := rfl
  rwa [hnothing, List.append_nil] at hread

/-- Plain values with one compact text are one value. -/
theorem Plain.eq_of_compact {v w : Json} (hv : v.Plain) (hw : w.Plain) (h : compact v = compact w) :
    v = w := by
  have hread := read_compact hv
  rw [h, read_compact hw] at hread
  exact (Except.ok.inj hread).symm

/-! ## Sorted keys -/

theorem sortedItems_eq (xs : List Json) : sortedItems xs = xs.map sorted := by
  induction xs with
  | nil => rfl
  | cons x xs ih => rw [sortedItems, ih, List.map_cons]

theorem sortedFields_eq (fields : Table Json) :
    sortedFields fields = fields.map fun f ↦ (f.1, sorted f.2) := by
  induction fields with
  | nil => rfl
  | cons f fields ih => rw [sortedFields, ih, List.map_cons]

theorem nodupKeys_sortedFields {fields : Table Json} (h : fields.NodupKeys) :
    Table.NodupKeys (sortedFields fields) := by
  have hnames : (sortedFields fields).map Prod.fst = fields.map Prod.fst := by
    rw [sortedFields_eq, List.map_map]
    rfl
  rw [Table.NodupKeys, hnames]
  exact h

/-- An object with sorted keys has the same fields, with the keys of their values sorted. -/
theorem field?_sorted {fields : Table Json} (h : fields.NodupKeys) (key : String) :
    (sorted (.obj fields)).field? key = (fields.lookup key).map sorted := by
  rw [sorted, field?, Table.lookup_eq_of_perm (Table.sortKeys_perm _)
    (Table.nodupKeys_sortKeys (nodupKeys_sortedFields h)), sortedFields_eq]
  exact Table.lookup_map_values (fun _ ↦ sorted) fields key

/-- A plain value is plain with its keys in another order. -/
theorem Plain.sorted {v : Json} (h : v.Plain) : v.sorted.Plain := by
  induction h with
  | null => exact .null
  | bool b => exact .bool b
  | int n => exact .int n
  | float h => exact .float h
  | str s => exact .str s
  | arr h ih =>
    rw [Json.sorted, sortedItems_eq]
    refine .arr fun y hy ↦ ?_
    obtain ⟨x, hx, rfl⟩ := List.mem_map.mp hy
    exact ih x hx
  | @obj fields hkeys h ih =>
    refine .obj (Table.nodupKeys_sortKeys (nodupKeys_sortedFields hkeys)) fun f hf ↦ ?_
    rw [(Table.sortKeys_perm _).mem_iff, sortedFields_eq] at hf
    obtain ⟨g, hg, rfl⟩ := List.mem_map.mp hf
    exact ih g hg

end Json

end FeatureAtlas
