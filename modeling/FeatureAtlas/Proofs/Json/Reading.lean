import FeatureAtlas.Proofs.Json.Scalar

/-!
# Reading documents

The reader accepts exactly the plain documents and gives them their values. One direction goes along the
tree: fuel for its length suffices, and a value stops where its text does. The other goes along the fuel:
each step of the reader that succeeds is a part of a tree.
-/

namespace FeatureAtlas.Json

variable {fuel p q : Nat} {r s : List Char}

/-! ## Steps of the reader -/

theorem readValue_string {name : String} {c : Cursor}
    (h : readString ⟨p + 1, s⟩ = .ok (name, c)) :
    readValue (fuel + 1) ⟨p, '"' :: s⟩ = .ok (str name, c) := by
  rw [readValue.eq_def]
  simp only [h]
  rfl

theorem readValue_emptyArray (h : Cursor.skipSpace ⟨p + 1, s⟩ = ⟨q, ']' :: r⟩) :
    readValue (fuel + 1) ⟨p, '[' :: s⟩ = .ok (arr [], ⟨q + 1, r⟩) := by
  rw [readValue.eq_def]
  simp only [h]

theorem readValue_emptyObject (h : Cursor.skipSpace ⟨p + 1, s⟩ = ⟨q, '}' :: r⟩) :
    readValue (fuel + 1) ⟨p, '{' :: s⟩ = .ok (obj [], ⟨q + 1, r⟩) := by
  rw [readValue.eq_def]
  simp only [h]

theorem readValue_array {items : List Json} {c : Cursor}
    (h : Cursor.skipSpace ⟨p + 1, s⟩ = ⟨q, r⟩) (hne : ∀ more, r ≠ ']' :: more)
    (hitems : readItems fuel ⟨q, r⟩ [] = .ok (items, c)) :
    readValue (fuel + 1) ⟨p, '[' :: s⟩ = .ok (arr items, c) := by
  rw [readValue.eq_def]
  simp only [h]
  rw [hitems]
  rfl

theorem readValue_object {fields : List (String × Json)} {c : Cursor}
    (h : Cursor.skipSpace ⟨p + 1, s⟩ = ⟨q, r⟩) (hne : ∀ more, r ≠ '}' :: more)
    (hfields : readFields fuel ⟨q, r⟩ [] = .ok (fields, c)) :
    readValue (fuel + 1) ⟨p, '{' :: s⟩ = .ok (obj fields, c) := by
  rw [readValue.eq_def]
  simp only [h]
  rw [hfields]
  rfl

/-- A character at which the reader tries names and numbers. -/
def IsBare (c : Char) : Prop := c ≠ '"' ∧ c ≠ '{' ∧ c ≠ '['

instance (c : Char) : Decidable (IsBare c) := inferInstanceAs (Decidable (_ ∧ _))

theorem readValue_bare {c : Char} (h : IsBare c) :
    readValue (fuel + 1) ⟨p, c :: s⟩
      = match readName? ⟨p, c :: s⟩ with
        | some found => .ok found
        | none => match readNumber? ⟨p, c :: s⟩ with
          | some found => .ok found
          | none => fail .expectedValue p := by
  obtain ⟨hquote, hbrace, hbracket⟩ := h
  rw [readValue]
  dsimp only
  split
  case h_1 heq => exact absurd (List.cons.inj heq).1 hquote
  case h_2 heq => exact absurd (List.cons.inj heq).1 hbrace
  case h_3 heq => exact absurd (List.cons.inj heq).1 hbracket
  case h_4 => rfl

section

variable {c c₁ : Cursor} {v : Json}

theorem readItems_last {acc : List Json} (hv : readValue fuel c = .ok (v, c₁))
    (h : c₁.skipSpace = ⟨q, ']' :: r⟩) :
    readItems (fuel + 1) c acc = .ok ((v :: acc).reverse, ⟨q + 1, r⟩) := by
  rw [readItems.eq_def]
  simp only [hv, h, bind, Except.bind]
  rfl

theorem readItems_more {acc : List Json} (hv : readValue fuel c = .ok (v, c₁))
    (h : c₁.skipSpace = ⟨q, ',' :: r⟩) :
    readItems (fuel + 1) c acc = readItems fuel (Cursor.skipSpace ⟨q + 1, r⟩) (v :: acc) := by
  rw [readItems.eq_def]
  simp only [hv, h, bind, Except.bind]

variable {name : String} {c₂ : Cursor} {q' : Nat} {s' : List Char} {acc : List (String × Json)}

theorem readFields_last (hname : readString ⟨p + 1, s⟩ = .ok (name, c₁))
    (hcolon : c₁.skipSpace = ⟨q, ':' :: s'⟩)
    (hv : readValue fuel (Cursor.skipSpace ⟨q + 1, s'⟩) = .ok (v, c₂))
    (h : c₂.skipSpace = ⟨q', '}' :: r⟩) :
    readFields (fuel + 1) ⟨p, '"' :: s⟩ acc = .ok (Table.set name v acc, ⟨q' + 1, r⟩) := by
  rw [readFields.eq_def]
  simp only [hname, hcolon, hv, h, bind, Except.bind]
  rfl

theorem readFields_more (hname : readString ⟨p + 1, s⟩ = .ok (name, c₁))
    (hcolon : c₁.skipSpace = ⟨q, ':' :: s'⟩)
    (hv : readValue fuel (Cursor.skipSpace ⟨q + 1, s'⟩) = .ok (v, c₂))
    (h : c₂.skipSpace = ⟨q', ',' :: r⟩) :
    readFields (fuel + 1) ⟨p, '"' :: s⟩ acc
      = readFields fuel (Cursor.skipSpace ⟨q' + 1, r⟩) (Table.set name v acc) := by
  rw [readFields.eq_def]
  simp only [hname, hcolon, hv, h, bind, Except.bind]

end

/-! ## Blanks -/

theorem Filler.isSpace_of_mem_plain {f : Filler} {c : Char} (h : c ∈ Gap.text f.plain) :
    isSpace c = true := by
  cases f with
  | blank d hd =>
    rw [List.mem_singleton.mp h]
    exact hd
  | line body hbody =>
    rw [List.mem_singleton.mp h]
    rfl
  | block body hbody => cases h

theorem Gap.isSpace_of_mem_plain {g : Gap} {c : Char} (h : c ∈ g.plain.text) :
    isSpace c = true := by
  rw [text, plain, List.flatMap_assoc] at h
  obtain ⟨f, -, hf⟩ := List.mem_flatMap.mp h
  exact f.isSpace_of_mem_plain hf

/-- The text does not go on with a blank. -/
def NoSpace (s : List Char) : Prop := ∀ c ∈ s.head?, isSpace c = false

theorem exists_skipSpace (g : Gap) (hs : NoSpace s) (p : Nat) :
    ∃ q, Cursor.skipSpace ⟨p, g.plain.text ++ s⟩ = ⟨q, s⟩ := by
  have hblanks : (g.plain.text ++ s).takeWhile isSpace = g.plain.text := by
    rw [List.takeWhile_append_of_pos fun _ ↦ Gap.isSpace_of_mem_plain]
    cases s with
    | nil => simp
    | cons c s => simp [hs c rfl]
  refine ⟨p + g.plain.text.length, ?_⟩
  rw [Cursor.skipSpace, hblanks, Cursor.advance, List.drop_left]

theorem isSpace_of_opens {c : Char} (h : Opens c) : isSpace c = false := by
  cases hc : isSpace c with
  | false => rfl
  | true =>
    rcases eq_of_isSpace hc with rfl | rfl | rfl | rfl <;> exact absurd h (by decide)

theorem noSpace_cons {c : Char} (h : isSpace c = false) : NoSpace (c :: r) := by
  intro d hd
  obtain rfl : c = d := Option.some.inj hd
  exact h

theorem noSpace_tree (t : Tree) : NoSpace (t.text ++ r) := by
  obtain ⟨c, cs, htext, hc⟩ := t.exists_opens
  rw [htext]
  exact noSpace_cons (isSpace_of_opens hc)

theorem noSpace_items (items : Items) : NoSpace (items.text ++ r) := by
  obtain ⟨c, cs, htext, hc⟩ := items.exists_opens
  rw [htext]
  exact noSpace_cons (isSpace_of_opens hc)

theorem items_ne_bracket (items : Items) (more : List Char) : items.text ++ r ≠ ']' :: more := by
  obtain ⟨c, cs, htext, hc⟩ := items.exists_opens
  rw [htext]
  exact fun heq ↦ hc.2.2.2.1 (List.cons.inj heq).1

theorem fields_ne_brace (fields : Fields) (more : List Char) : fields.text ++ r ≠ '}' :: more := by
  obtain ⟨cs, htext⟩ := fields.exists_quote
  rw [htext]
  exact fun heq ↦ absurd (List.cons.inj heq).1 (by decide)

theorem noSpace_fields (fields : Fields) : NoSpace (fields.text ++ r) := by
  obtain ⟨cs, htext⟩ := fields.exists_quote
  rw [htext]
  exact noSpace_cons rfl

theorem follows_gap (g : Gap) {c : Char} (h : c = ',' ∨ c = ']' ∨ c = '}') :
    Follows (g.plain.text ++ c :: r) := by
  intro d hd
  cases htext : g.plain.text with
  | nil =>
    rw [htext] at hd
    obtain rfl : c = d := Option.some.inj hd
    exact Or.inr h
  | cons e es =>
    have he : isSpace e = true := Gap.isSpace_of_mem_plain (htext ▸ List.mem_cons_self)
    rw [htext] at hd
    obtain rfl : e = d := Option.some.inj hd
    exact Or.inl he

/-! ## What is written is read -/

theorem Numeral.exists_bare (n : Numeral) : ∃ c cs, n.text = c :: cs ∧ IsBare c := by
  obtain ⟨c, cs, htext, rfl | hdigit⟩ := n.exists_head
  · exact ⟨'-', cs, htext, by decide⟩
  · refine ⟨c, cs, htext, ?_, ?_, ?_⟩ <;> rintro rfl <;> cases hdigit

theorem exists_bare_of_mem_names {name : String} {v : Json} (h : (name, v) ∈ names) :
    ∃ c cs, name.toList = c :: cs ∧ IsBare c := by
  simp only [names, List.mem_cons, Prod.mk.injEq, List.not_mem_nil, or_false] at h
  rcases h with ⟨rfl, -⟩ | ⟨rfl, -⟩ | ⟨rfl, -⟩ | ⟨rfl, -⟩ | ⟨rfl, -⟩ | ⟨rfl, -⟩ <;>
    exact ⟨_, _, rfl, by decide⟩

theorem reads_scalar (t : Scalar) (h : Follows r) (p : Nat) :
    Reads (readValue (fuel + 1) ⟨p, t.text ++ r⟩) t.value r := by
  cases t with
  | string glyphs =>
    obtain ⟨q, hq⟩ := reads_readString glyphs (p + 1) r
    rw [Scalar.text, Glyph.quoted_append]
    exact ⟨q, readValue_string hq⟩
  | number n =>
    obtain ⟨q, hq⟩ := readNumber?_numeral n h p
    have hname := readName?_numeral n p r
    obtain ⟨c, cs, htext, hc⟩ := n.exists_bare
    rw [Scalar.text]
    rw [htext, List.cons_append] at hq hname ⊢
    rw [readValue_bare hc, hname, hq]
    exact ⟨q, rfl⟩
  | name s v hmem =>
    obtain ⟨q, hq⟩ := readName?_name hmem p r
    obtain ⟨c, cs, htext, hc⟩ := exists_bare_of_mem_names hmem
    rw [Scalar.text]
    rw [htext, List.cons_append] at hq ⊢
    rw [readValue_bare hc, hq]
    exact ⟨q, rfl⟩

/-- The fields of an object that already has some. -/
def addFields (acc entries : Table Json) : Table Json :=
  entries.foldl (fun t entry ↦ t.set entry.1 entry.2) acc

/-- The reader reads a key up to the value behind it. -/
theorem exists_key (k : Key) (hs : NoSpace s) (p : Nat) :
    ∃ cs c q s' q', (k.regap Gap.plain).text ++ s = '"' :: cs ∧
      readString ⟨p + 1, cs⟩ = .ok (k.name, c) ∧ c.skipSpace = ⟨q, ':' :: s'⟩ ∧
      Cursor.skipSpace ⟨q + 1, s'⟩ = ⟨q', s⟩ := by
  simp only [Key.regap, Key.text, List.append_assoc, List.cons_append, Glyph.quoted_append]
  obtain ⟨q₁, hname⟩ := reads_readString k.glyphs (p + 1)
    (k.before.plain.text ++ ':' :: (k.after.plain.text ++ s))
  obtain ⟨q₂, hcolon⟩ := exists_skipSpace k.before
    (noSpace_cons (c := ':') (r := k.after.plain.text ++ s) rfl) q₁
  obtain ⟨q₃, hvalue⟩ := exists_skipSpace k.after hs (q₂ + 1)
  exact ⟨_, _, q₂, _, q₃, rfl, hname, hcolon, hvalue⟩

mutual

-- The induction is on the tree. Every step of the reader takes at least one character and one unit of fuel,
-- so fuel for the length of the text lasts; elements and fields need one unit more for their own steps.

/-- The reader reads the value of a plain tree. -/
theorem reads_tree (t : Tree) {r : List Char} (h : Follows r) {fuel : Nat}
    (hfuel : (t.regap Gap.plain).text.length ≤ fuel) (p : Nat) :
    Reads (readValue fuel ⟨p, (t.regap Gap.plain).text ++ r⟩) t.value r := by
  obtain ⟨fuel, rfl⟩ : ∃ k, fuel = k + 1 := by
    obtain ⟨c, cs, htext, -⟩ := (t.regap Gap.plain).exists_opens
    rw [htext, List.length_cons] at hfuel
    exact ⟨fuel - 1, by omega⟩
  cases t with
  | scalar s => exact reads_scalar s h p
  | emptyArray g =>
    simp only [Tree.regap, Tree.text, List.cons_append, List.append_assoc, List.nil_append]
    obtain ⟨q, hq⟩ := exists_skipSpace g (noSpace_cons (r := r) (c := ']') rfl) (p + 1)
    exact ⟨q + 1, readValue_emptyArray hq⟩
  | emptyObject g =>
    simp only [Tree.regap, Tree.text, List.cons_append, List.append_assoc, List.nil_append]
    obtain ⟨q, hq⟩ := exists_skipSpace g (noSpace_cons (r := r) (c := '}') rfl) (p + 1)
    exact ⟨q + 1, readValue_emptyObject hq⟩
  | array g items =>
    simp only [Tree.regap, Tree.text, List.cons_append, List.append_assoc, List.nil_append,
      List.length_cons, List.length_append, List.length_nil] at hfuel ⊢
    obtain ⟨q, hq⟩ := exists_skipSpace g (noSpace_items (r := ']' :: r) (items.regap Gap.plain)) (p + 1)
    obtain ⟨q', hitems⟩ : Reads (readItems fuel ⟨q, _⟩ []) _ r :=
      reads_items items r (by omega) q []
    exact ⟨q', readValue_array hq (items_ne_bracket _) hitems⟩
  | object g fields =>
    simp only [Tree.regap, Tree.text, List.cons_append, List.append_assoc, List.nil_append,
      List.length_cons, List.length_append, List.length_nil] at hfuel ⊢
    obtain ⟨q, hq⟩ :=
      exists_skipSpace g (noSpace_fields (r := '}' :: r) (fields.regap Gap.plain)) (p + 1)
    obtain ⟨q', hfields⟩ : Reads (readFields fuel ⟨q, _⟩ []) _ r :=
      reads_fields fields r (by omega) q []
    exact ⟨q', readValue_object hq (fields_ne_brace _) hfields⟩

theorem reads_items (items : Items) (r : List Char) {fuel : Nat}
    (hfuel : (items.regap Gap.plain).text.length < fuel) (p : Nat) (acc : List Json) :
    Reads (readItems fuel ⟨p, (items.regap Gap.plain).text ++ ']' :: r⟩ acc)
      (acc.reverse ++ items.values) r := by
  obtain ⟨fuel, rfl⟩ := Nat.exists_eq_add_one_of_ne_zero (Nat.ne_zero_of_lt hfuel)
  cases items with
  | last t g comma =>
    simp only [Items.regap, Items.text, trailingText, List.append_nil, List.append_assoc,
      List.length_append] at hfuel ⊢
    obtain ⟨q, hvalue⟩ : Reads (readValue fuel _) t.value _ :=
      reads_tree t (follows_gap (g ++ comma.getD []) (Or.inr (Or.inl rfl))) (by omega) p
    obtain ⟨q', hskip⟩ :=
      exists_skipSpace (g ++ comma.getD []) (noSpace_cons (c := ']') rfl) q
    refine ⟨q' + 1, (readItems_last hvalue hskip).trans ?_⟩
    rw [List.reverse_cons, Items.values]
  | more t g g' rest =>
    simp only [Items.regap, Items.text, List.append_assoc, List.cons_append, List.length_append,
      List.length_cons] at hfuel ⊢
    obtain ⟨q, hvalue⟩ : Reads (readValue fuel _) t.value _ :=
      reads_tree t (follows_gap g (Or.inl rfl)) (by omega) p
    obtain ⟨q', hskip⟩ := exists_skipSpace g (noSpace_cons (c := ',') rfl) q
    obtain ⟨q'', hskip'⟩ := exists_skipSpace g' (noSpace_items (rest.regap Gap.plain)) (q' + 1)
    obtain ⟨e, hrest⟩ : Reads (readItems fuel _ (t.value :: acc)) _ r :=
      reads_items rest r (by omega) q'' (t.value :: acc)
    refine ⟨e, (readItems_more hvalue hskip).trans ?_⟩
    rw [hskip', hrest, List.reverse_cons, List.append_assoc, Items.values]
    rfl

theorem reads_fields (fields : Fields) (r : List Char) {fuel : Nat}
    (hfuel : (fields.regap Gap.plain).text.length < fuel) (p : Nat) (acc : Table Json) :
    Reads (readFields fuel ⟨p, (fields.regap Gap.plain).text ++ '}' :: r⟩ acc)
      (addFields acc fields.entries) r := by
  obtain ⟨fuel, rfl⟩ := Nat.exists_eq_add_one_of_ne_zero (Nat.ne_zero_of_lt hfuel)
  cases fields with
  | last k t g comma =>
    simp only [Fields.regap, Fields.text, trailingText, List.append_nil, List.append_assoc,
      List.length_append] at hfuel ⊢
    obtain ⟨cs, c, q, s', q', htext, hname, hcolon, hskip⟩ :=
      exists_key k (noSpace_tree (t.regap Gap.plain)) p
    obtain ⟨e, hvalue⟩ : Reads (readValue fuel _) t.value _ :=
      reads_tree t (follows_gap (g ++ comma.getD []) (Or.inr (Or.inr rfl))) (by omega) q'
    obtain ⟨e', hclose⟩ :=
      exists_skipSpace (g ++ comma.getD []) (noSpace_cons (c := '}') rfl) e
    rw [← hskip] at hvalue
    rw [htext]
    exact ⟨e' + 1, readFields_last hname hcolon hvalue hclose⟩
  | more k t g g' rest =>
    simp only [Fields.regap, Fields.text, List.append_assoc, List.cons_append, List.length_append,
      List.length_cons] at hfuel ⊢
    obtain ⟨cs, c, q, s', q', htext, hname, hcolon, hskip⟩ :=
      exists_key k (noSpace_tree (t.regap Gap.plain)) p
    obtain ⟨e, hvalue⟩ : Reads (readValue fuel _) t.value _ :=
      reads_tree t (follows_gap g (Or.inl rfl)) (by omega) q'
    obtain ⟨e', hcomma⟩ := exists_skipSpace g (noSpace_cons (c := ',') rfl) e
    obtain ⟨e'', hnext⟩ := exists_skipSpace g' (noSpace_fields (rest.regap Gap.plain)) (e' + 1)
    obtain ⟨last, hrest⟩ : Reads (readFields fuel _ (Table.set k.name t.value acc)) _ r :=
      reads_fields rest r (by omega) e'' _
    rw [← hskip] at hvalue
    rw [← hnext] at hrest
    rw [htext]
    exact ⟨last, (readFields_more hname hcolon hvalue hcomma).trans hrest⟩

end

theorem follows_plain (g : Gap) : Follows g.plain.text := by
  intro c hc
  exact Or.inl (Gap.isSpace_of_mem_plain (List.mem_of_mem_head? hc))

theorem Document.head_ne_mark (d : Document) : d.plain.text.head? ≠ some '\uFEFF' := by
  intro hhead
  rw [text] at hhead
  cases hbefore : d.plain.before.text with
  | nil =>
    obtain ⟨c, cs, htext, hc⟩ := d.plain.tree.exists_opens
    rw [hbefore, htext] at hhead
    exact hc.2.2.2.2 (Option.some.inj hhead)
  | cons c cs =>
    have hspace : isSpace c = true :=
      Gap.isSpace_of_mem_plain (g := d.before) (hbefore ▸ List.mem_cons_self)
    rw [hbefore] at hhead
    obtain rfl : c = '\uFEFF' := Option.some.inj hhead
    cases hspace

/-- **Every plain document is read**, and has the value that its tokens say. -/
theorem read_plain (d : Document) : read d.plain.source = .ok d.value := by
  have htext : d.plain.text = d.before.plain.text ++
      ((d.tree.regap Gap.plain).text ++ d.after.plain.text) := by
    simp only [Document.plain, Document.regap, Document.text, Option.elim_none, List.append_nil]
  obtain ⟨q, hskip⟩ := exists_skipSpace d.before
    (noSpace_tree (r := d.after.plain.text) (d.tree.regap Gap.plain)) 0
  obtain ⟨e, hvalue⟩ : Reads (readValue (d.plain.text.length + 1) _) d.value _ :=
    reads_tree d.tree (follows_plain d.after) (by simp only [htext, List.length_append]; omega) q
  obtain ⟨e', hend⟩ := exists_skipSpace (s := []) d.after nofun e
  have hmark : ¬ (d.plain.text.head? == some '\uFEFF') = true := by
    simpa using d.head_ne_mark
  rw [List.append_nil] at hend
  rw [← hskip, ← htext] at hvalue
  rw [read, Document.source, String.toList_ofList]
  simp only [if_neg hmark, hvalue, hend, bind, Except.bind]
  rfl

/-! ## What is read was written -/

/-- Blanks are a gap without comments. -/
theorem exists_gap {bs : List Char} (h : ∀ c ∈ bs, isSpace c = true) :
    ∃ g : Gap, g.text = bs ∧ g.plain = g := by
  induction bs with
  | nil => exact ⟨[], rfl, rfl⟩
  | cons c bs ih =>
    obtain ⟨hc, hbs⟩ := List.forall_mem_cons.mp h
    obtain ⟨g, htext, hplain⟩ := ih hbs
    refine ⟨.blank c hc :: g, ?_, ?_⟩
    · rw [← htext]
      rfl
    · exact congrArg (Filler.blank c hc :: ·) hplain

theorem exists_gap_skipSpace (c : Cursor) :
    ∃ g : Gap, c.rest = g.text ++ c.skipSpace.rest ∧ g.plain = g := by
  have hspace : ∀ d ∈ c.rest.takeWhile isSpace, isSpace d = true :=
    fun d hd ↦ List.all_eq_true.mp List.all_takeWhile d hd
  obtain ⟨g, htext, hplain⟩ := exists_gap hspace
  refine ⟨g, ?_, hplain⟩
  rw [htext]
  exact (List.prefix_iff_eq_append.mp (List.takeWhile_prefix isSpace)).symm

/-- The text between two cursors is a value. -/
def WritesValue (c c' : Cursor) (v : Json) : Prop :=
  ∃ t : Tree, c.rest = t.text ++ c'.rest ∧ t.value = v ∧ t.regap Gap.plain = t

/-- The text between two cursors is elements with a closing bracket. -/
def WritesItems (c c' : Cursor) (vs : List Json) : Prop :=
  ∃ items : Items, c.rest = items.text ++ ']' :: c'.rest ∧ items.values = vs ∧
    items.regap Gap.plain = items

/-- The text between two cursors is fields with a closing brace. -/
def WritesFields (c c' : Cursor) (entries : Table Json) : Prop :=
  ∃ fields : Fields, c.rest = fields.text ++ '}' :: c'.rest ∧ fields.entries = entries ∧
    fields.regap Gap.plain = fields

/-- What one step of the reader of elements does. -/
theorem readItems_cases {c c' : Cursor} {acc vs : List Json}
    (h : readItems (fuel + 1) c acc = .ok (vs, c')) :
    ∃ v c₁ tail, readValue fuel c = .ok (v, c₁) ∧
      ((c₁.skipSpace.rest = ']' :: tail ∧ vs = acc.reverse ++ [v] ∧ c'.rest = tail) ∨
        ∃ q, c₁.skipSpace.rest = ',' :: tail ∧
          readItems fuel (Cursor.skipSpace ⟨q, tail⟩) (v :: acc) = .ok (vs, c')) := by
  rw [readItems] at h
  obtain ⟨⟨v, c₁⟩, hread, h⟩ := bind_eq_ok.mp h
  dsimp only at h
  split at h
  · next tail hclose =>
    cases h
    exact ⟨v, c₁, tail, hread, Or.inl ⟨hclose, List.reverse_cons, rfl⟩⟩
  · next tail hcomma => exact ⟨v, c₁, tail, hread, Or.inr ⟨_, hcomma, h⟩⟩
  · cases h

/-- A key that is read is written, with blanks around its colon. -/
theorem exists_key_of_read {c c₁ : Cursor} {rest more : List Char} {name : String}
    (hquote : c.rest = '"' :: rest) (hname : readString ⟨p, rest⟩ = .ok (name, c₁))
    (hcolon : c₁.skipSpace.rest = ':' :: more) (q : Nat) :
    ∃ k : Key, c.rest = k.text ++ (Cursor.skipSpace ⟨q, more⟩).rest ∧ k.name = name ∧
      k.regap Gap.plain = k := by
  obtain ⟨glyphs, hglyphs, rfl⟩ := exists_glyphs_of_readString hname
  obtain ⟨before, hbefore, hbeforePlain⟩ := exists_gap_skipSpace c₁
  obtain ⟨after, hafter, hafterPlain⟩ := exists_gap_skipSpace ⟨q, more⟩
  dsimp only at hglyphs hafter
  refine ⟨⟨glyphs, before, after⟩, ?_, rfl, ?_⟩
  · rw [hquote, hglyphs, hbefore, hcolon]
    simp only [Key.text, Glyph.quoted_append, List.append_assoc, List.cons_append]
    rw [← hafter]
  · rw [Key.regap, hbeforePlain, hafterPlain]

/-- What one step of the reader of fields does. -/
theorem readFields_cases {c c' : Cursor} {acc fs : Table Json}
    (h : readFields (fuel + 1) c acc = .ok (fs, c')) :
    ∃ (k : Key) (v : Json) (c₁ c₂ : Cursor) (tail : List Char), c.rest = k.text ++ c₁.rest ∧
      k.regap Gap.plain = k ∧ readValue fuel c₁ = .ok (v, c₂) ∧
      ((c₂.skipSpace.rest = '}' :: tail ∧ fs = acc.set k.name v ∧ c'.rest = tail) ∨
        ∃ q, c₂.skipSpace.rest = ',' :: tail ∧
          readFields fuel (Cursor.skipSpace ⟨q, tail⟩) (acc.set k.name v) = .ok (fs, c')) := by
  rw [readFields.eq_def] at h
  dsimp only at h
  split at h
  · next rest hquote =>
    obtain ⟨⟨name, c₁⟩, hname, h⟩ := bind_eq_ok.mp h
    dsimp only at h
    split at h
    · next more hcolon =>
      obtain ⟨⟨v, c₂⟩, hread, h⟩ := bind_eq_ok.mp h
      obtain ⟨k, hkey, rfl, hplain⟩ :=
        exists_key_of_read hquote hname hcolon (c₁.skipSpace.position + 1)
      dsimp only at h
      split at h
      · next tail hclose =>
        cases h
        exact ⟨k, v, _, c₂, tail, hkey, hplain, hread, Or.inl ⟨hclose, rfl, rfl⟩⟩
      · next tail hcomma =>
        exact ⟨k, v, _, c₂, tail, hkey, hplain, hread, Or.inr ⟨_, hcomma, h⟩⟩
      · cases h
    · cases h
  · cases h

section

variable {c c' : Cursor}
  (hvalue : ∀ c v c', readValue fuel c = .ok (v, c') → WritesValue c c' v)
include hvalue

theorem writesItems_succ
    (hitems : ∀ c acc vs c', readItems fuel c acc = .ok (vs, c') →
      ∃ more, vs = acc.reverse ++ more ∧ WritesItems c c' more)
    {acc vs : List Json} (h : readItems (fuel + 1) c acc = .ok (vs, c')) :
    ∃ more, vs = acc.reverse ++ more ∧ WritesItems c c' more := by
  obtain ⟨v, c₁, tail, hread, hnext⟩ := readItems_cases h
  obtain ⟨t, htext, rfl, hplain⟩ := hvalue c v c₁ hread
  obtain ⟨g, hg, hgplain⟩ := exists_gap_skipSpace c₁
  rw [hg] at htext
  obtain ⟨hclose, rfl, rfl⟩ | ⟨q, hcomma, hrest⟩ := hnext
  · refine ⟨[t.value], rfl, .last t g none, ?_, rfl, ?_⟩
    · rw [htext, hclose]
      simp [Items.text, trailingText]
    · rw [Items.regap, hplain, Option.getD_none, List.append_nil, hgplain]
  · obtain ⟨more, rfl, items, hitemsText, rfl, hitemsPlain⟩ := hitems _ _ _ _ hrest
    obtain ⟨g', hg', hgplain'⟩ := exists_gap_skipSpace ⟨q, tail⟩
    dsimp only at hg'
    rw [hitemsText] at hg'
    refine ⟨t.value :: items.values, ?_, .more t g g' items, ?_, rfl, ?_⟩
    · rw [List.reverse_cons, List.append_assoc, List.singleton_append]
    · rw [htext, hcomma, hg']
      simp [Items.text]
    · rw [Items.regap, hplain, hgplain, hgplain', hitemsPlain]

theorem writesFields_succ
    (hfields : ∀ c acc fs c', readFields fuel c acc = .ok (fs, c') →
      ∃ more, fs = addFields acc more ∧ WritesFields c c' more)
    {acc fs : Table Json} (h : readFields (fuel + 1) c acc = .ok (fs, c')) :
    ∃ more, fs = addFields acc more ∧ WritesFields c c' more := by
  obtain ⟨k, v, c₁, c₂, tail, hkey, hkplain, hread, hnext⟩ := readFields_cases h
  obtain ⟨t, htext, rfl, hplain⟩ := hvalue c₁ v c₂ hread
  obtain ⟨g, hg, hgplain⟩ := exists_gap_skipSpace c₂
  rw [htext, hg] at hkey
  obtain ⟨hclose, rfl, rfl⟩ | ⟨q, hcomma, hrest⟩ := hnext
  · refine ⟨[(k.name, t.value)], rfl, .last k t g none, ?_, rfl, ?_⟩
    · rw [hkey, hclose]
      simp [Fields.text, trailingText]
    · rw [Fields.regap, hkplain, hplain, Option.getD_none, List.append_nil, hgplain]
  · obtain ⟨more, rfl, fields, hfieldsText, rfl, hfieldsPlain⟩ := hfields _ _ _ _ hrest
    obtain ⟨g', hg', hgplain'⟩ := exists_gap_skipSpace ⟨q, tail⟩
    dsimp only at hg'
    rw [hfieldsText] at hg'
    refine ⟨(k.name, t.value) :: fields.entries, rfl, .more k t g g' fields, ?_, rfl, ?_⟩
    · rw [hkey, hcomma, hg']
      simp [Fields.text]
    · rw [Fields.regap, hkplain, hplain, hgplain, hgplain', hfieldsPlain]

end

/-- The ways in which the reader comes by a value. -/
inductive ReadsAs (fuel : Nat) (c c' : Cursor) : Json → Prop
  | string {p rest s} (hopen : c.rest = '"' :: rest) (hread : readString ⟨p, rest⟩ = .ok (s, c')) :
      ReadsAs fuel c c' (str s)
  | emptyObject {p rest} (hopen : c.rest = '{' :: rest)
      (hclose : (Cursor.skipSpace ⟨p, rest⟩).rest = '}' :: c'.rest) : ReadsAs fuel c c' (obj [])
  | object {p rest fs} (hopen : c.rest = '{' :: rest)
      (hread : readFields fuel (Cursor.skipSpace ⟨p, rest⟩) [] = .ok (fs, c')) :
      ReadsAs fuel c c' (obj fs)
  | emptyArray {p rest} (hopen : c.rest = '[' :: rest)
      (hclose : (Cursor.skipSpace ⟨p, rest⟩).rest = ']' :: c'.rest) : ReadsAs fuel c c' (arr [])
  | array {p rest vs} (hopen : c.rest = '[' :: rest)
      (hread : readItems fuel (Cursor.skipSpace ⟨p, rest⟩) [] = .ok (vs, c')) :
      ReadsAs fuel c c' (arr vs)
  | name {v} (hread : readName? c = some (v, c')) : ReadsAs fuel c c' v
  | number {v} (hread : readNumber? c = some (v, c')) : ReadsAs fuel c c' v

/-- What one step of the reader of values does. -/
theorem readValue_cases {c c' : Cursor} {v : Json} (h : readValue (fuel + 1) c = .ok (v, c')) :
    ReadsAs fuel c c' v := by
  rw [readValue.eq_def] at h
  dsimp only at h
  split at h
  · next rest hquote =>
    obtain ⟨⟨s, c₁⟩, hread, hreturn⟩ := bind_eq_ok.mp h
    cases hreturn
    exact .string hquote hread
  · next rest hbrace =>
    split at h
    · next more hclose =>
      cases h
      exact .emptyObject hbrace hclose
    · obtain ⟨⟨fs, c₁⟩, hread, hreturn⟩ := bind_eq_ok.mp h
      cases hreturn
      exact .object hbrace hread
  · next rest hbracket =>
    split at h
    · next more hclose =>
      cases h
      exact .emptyArray hbracket hclose
    · obtain ⟨⟨vs, c₁⟩, hread, hreturn⟩ := bind_eq_ok.mp h
      cases hreturn
      exact .array hbracket hread
  · split at h
    · next found hname =>
      cases h
      exact .name hname
    · split at h
      · next found hnumber =>
        cases h
        exact .number hnumber
      · cases h

theorem writesValue_succ {c c' : Cursor}
    (hitems : ∀ c acc vs c', readItems fuel c acc = .ok (vs, c') →
      ∃ more, vs = acc.reverse ++ more ∧ WritesItems c c' more)
    (hfields : ∀ c acc fs c', readFields fuel c acc = .ok (fs, c') →
      ∃ more, fs = addFields acc more ∧ WritesFields c c' more)
    {v : Json} (h : readValue (fuel + 1) c = .ok (v, c')) : WritesValue c c' v := by
  cases readValue_cases h with
  | string hopen hread =>
    obtain ⟨glyphs, hglyphs, rfl⟩ := exists_glyphs_of_readString hread
    refine ⟨.scalar (.string glyphs), ?_, rfl, rfl⟩
    rw [hopen]
    exact (congrArg _ hglyphs).trans (Glyph.quoted_append glyphs _).symm
  | @emptyObject p rest hopen hclose =>
    obtain ⟨g, hg, hgplain⟩ := exists_gap_skipSpace ⟨p, rest⟩
    dsimp only at hg
    refine ⟨.emptyObject g, ?_, rfl, ?_⟩
    · rw [hopen, hg, hclose]
      simp [Tree.text]
    · rw [Tree.regap, hgplain]
  | @object p rest fs hopen hread =>
    obtain ⟨g, hg, hgplain⟩ := exists_gap_skipSpace ⟨p, rest⟩
    dsimp only at hg
    obtain ⟨_, hentries, fields, htext, rfl, hplain⟩ := hfields _ _ _ _ hread
    refine ⟨.object g fields, ?_, congrArg obj hentries.symm, ?_⟩
    · rw [hopen, hg, htext]
      simp [Tree.text]
    · rw [Tree.regap, hgplain, hplain]
  | @emptyArray p rest hopen hclose =>
    obtain ⟨g, hg, hgplain⟩ := exists_gap_skipSpace ⟨p, rest⟩
    dsimp only at hg
    refine ⟨.emptyArray g, ?_, rfl, ?_⟩
    · rw [hopen, hg, hclose]
      simp [Tree.text]
    · rw [Tree.regap, hgplain]
  | @array p rest vs hopen hread =>
    obtain ⟨g, hg, hgplain⟩ := exists_gap_skipSpace ⟨p, rest⟩
    dsimp only at hg
    obtain ⟨_, hvalues, items, htext, rfl, hplain⟩ := hitems _ _ _ _ hread
    refine ⟨.array g items, ?_, congrArg arr hvalues.symm, ?_⟩
    · rw [hopen, hg, htext]
      simp [Tree.text]
    · rw [Tree.regap, hgplain, hplain]
  | name hread =>
    obtain ⟨name, hmem, htext⟩ := exists_name hread
    exact ⟨.scalar (.name name v hmem), htext, rfl, rfl⟩
  | number hread =>
    obtain ⟨n, htext, hvalue⟩ := exists_numeral hread
    exact ⟨.scalar (.number n), htext, hvalue, rfl⟩

/-- What the reader reads was written by a plain tree, by plain elements or by plain fields. -/
theorem writes_of_read (fuel : Nat) :
    (∀ c v c', readValue fuel c = .ok (v, c') → WritesValue c c' v) ∧
    (∀ c acc vs c', readItems fuel c acc = .ok (vs, c') →
      ∃ more, vs = acc.reverse ++ more ∧ WritesItems c c' more) ∧
    ∀ c acc fs c', readFields fuel c acc = .ok (fs, c') →
      ∃ more, fs = addFields acc more ∧ WritesFields c c' more := by
  -- The three readers call one another with less fuel, so they are taken together.
  induction fuel with
  | zero =>
    refine ⟨fun c v c' h ↦ ?_, fun c acc vs c' h ↦ ?_, fun c acc fs c' h ↦ ?_⟩ <;> cases h
  | succ fuel ih =>
    obtain ⟨hvalue, hitems, hfields⟩ := ih
    exact ⟨fun _ _ _ ↦ writesValue_succ hitems hfields,
      fun _ _ _ _ ↦ writesItems_succ hvalue hitems,
      fun _ _ _ _ ↦ writesFields_succ hvalue hfields⟩

/-- **Whatever is read is a plain document** with the value that was read. -/
theorem exists_document {s : String} {v : Json} (h : read s = .ok v) :
    ∃ d : Document, d.source = s ∧ d.value = v ∧ d.plain = d := by
  rw [read] at h
  dsimp only at h
  split at h
  · cases h
  · obtain ⟨⟨v', c⟩, hread, h⟩ := bind_eq_ok.mp h
    dsimp only at h
    split at h
    · next hend =>
      cases h
      obtain ⟨before, hbefore, hbeforePlain⟩ := exists_gap_skipSpace ⟨0, s.toList⟩
      obtain ⟨t, htext, rfl, hplain⟩ := (writes_of_read _).1 _ _ _ hread
      obtain ⟨after, hafter, hafterPlain⟩ := exists_gap_skipSpace c
      refine ⟨⟨before, t, after, none, by simp⟩, ?_, rfl, ?_⟩
      · rw [List.isEmpty_iff.mp hend, List.append_nil] at hafter
        rw [htext, hafter] at hbefore
        rw [Document.source, Document.text, Option.elim_none, List.append_nil, ← hbefore,
          String.ofList_toList]
      · rw [Document.plain, Document.regap]
        congr 1
    · cases h

end FeatureAtlas.Json
