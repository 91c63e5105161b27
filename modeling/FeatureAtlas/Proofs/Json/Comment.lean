import FeatureAtlas.Json.Comment
import FeatureAtlas.Proofs.Json.Reading

/-!
# Erasing comments

One scan erases the comments of a document and the commas in front of closing brackets, and nothing else. It
enters a document token by token: a string is kept to its closing quote, whatever it contains, a gap keeps
its blanks, and a comma is kept where `closesNext`, which looks through the gap behind it, finds no closing
bracket. Each lemma is about what a scan does in front of an arbitrary rest, so they chain along a tree.
-/

namespace FeatureAtlas.Json

variable {r : List Char}

/-! ## Inside of comments -/

section

variable {c : Char}

theorem eraseComments_line_cons (h : c ≠ '\n') :
    eraseComments .lineComment (c :: r) = eraseComments .lineComment r := by
  rw [eraseComments.eq_def]
  split <;> simp_all

theorem closesNext_line_cons (h : c ≠ '\n') :
    closesNext .lineComment (c :: r) = closesNext .lineComment r := by
  rw [closesNext.eq_def]
  split <;> simp_all

theorem eraseComments_block_cons (h : c = '*' → r.head? ≠ some '/') :
    eraseComments .blockComment (c :: r) = eraseComments .blockComment r := by
  rw [eraseComments.eq_def]
  split <;> simp_all

theorem closesNext_block_cons (h : c = '*' → r.head? ≠ some '/') :
    closesNext .blockComment (c :: r) = closesNext .blockComment r := by
  rw [closesNext.eq_def]
  split <;> simp_all

/-- A character of the body of a block comment does not end it. -/
theorem not_ends_block {body : List Char} (h : ¬ ['*', '/'] <:+: c :: body) :
    c = '*' → (body ++ '*' :: '/' :: r).head? ≠ some '/' := by
  rintro rfl
  cases body with
  | nil => simp
  | cons d body =>
    rintro ⟨⟩
    exact h ⟨[], body, rfl⟩

end

section

variable {body : List Char}

theorem eraseComments_line_body (h : '\n' ∉ body) :
    eraseComments .lineComment (body ++ '\n' :: r) = '\n' :: eraseComments .plain r := by
  induction body with
  | nil => rfl
  | cons c body ih =>
    rw [List.mem_cons, not_or] at h
    rw [List.cons_append, eraseComments_line_cons (Ne.symm h.1), ih h.2]

theorem closesNext_line_body (h : '\n' ∉ body) :
    closesNext .lineComment (body ++ '\n' :: r) = closesNext .plain r := by
  induction body with
  | nil => rfl
  | cons c body ih =>
    rw [List.mem_cons, not_or] at h
    rw [List.cons_append, closesNext_line_cons (Ne.symm h.1), ih h.2]

theorem eraseComments_unfinished (h : '\n' ∉ body) : eraseComments .lineComment body = [] := by
  induction body with
  | nil => rfl
  | cons c body ih =>
    rw [List.mem_cons, not_or] at h
    rw [eraseComments_line_cons (Ne.symm h.1), ih h.2]

theorem eraseComments_block_body (h : ¬ ['*', '/'] <:+: body) :
    eraseComments .blockComment (body ++ '*' :: '/' :: r) = eraseComments .plain r := by
  induction body with
  | nil => rfl
  | cons c body ih =>
    rw [List.cons_append, eraseComments_block_cons (not_ends_block h),
      ih fun hin ↦ h (List.infix_cons hin)]

theorem closesNext_block_body (h : ¬ ['*', '/'] <:+: body) :
    closesNext .blockComment (body ++ '*' :: '/' :: r) = closesNext .plain r := by
  induction body with
  | nil => rfl
  | cons c body ih =>
    rw [List.cons_append, closesNext_block_cons (not_ends_block h),
      ih fun hin ↦ h (List.infix_cons hin)]

end

/-! ## Single characters -/

/-- A character that the scan keeps, whatever follows. -/
def IsNeutral (c : Char) : Prop := c ≠ '/' ∧ c ≠ '"' ∧ c ≠ ','

instance (c : Char) : Decidable (IsNeutral c) := inferInstanceAs (Decidable (_ ∧ _))

theorem eraseComments_cons_of_neutral {c : Char} (h : IsNeutral c) :
    eraseComments .plain (c :: r) = c :: eraseComments .plain r := by
  obtain ⟨hslash, hquote, hcomma⟩ := h
  rw [eraseComments]
  · simp [hquote, hcomma]
  · exact fun _ hc ↦ absurd hc hslash
  · exact fun _ hc ↦ absurd hc hslash

theorem eraseComments_append_of_neutral {cs : List Char} (h : ∀ c ∈ cs, IsNeutral c) :
    eraseComments .plain (cs ++ r) = cs ++ eraseComments .plain r := by
  induction cs with
  | nil => rfl
  | cons c cs ih =>
    obtain ⟨hc, hcs⟩ := List.forall_mem_cons.mp h
    rw [List.cons_append, eraseComments_cons_of_neutral hc, ih hcs, List.cons_append]

theorem eraseComments_comma :
    eraseComments .plain (',' :: r)
      = if closesNext .plain r then eraseComments .plain r else ',' :: eraseComments .plain r := by
  rw [eraseComments]
  · simp
  · exact nofun
  · exact nofun

theorem eraseComments_quote :
    eraseComments .plain ('"' :: r) = '"' :: eraseComments .string r := by
  rw [eraseComments]
  · simp
  · exact nofun
  · exact nofun

theorem closesNext_cons {c : Char} (h : c ≠ '/') :
    closesNext .plain (c :: r)
      = if Text.isBlank c then closesNext .plain r else c == '}' || c == ']' := by
  rw [closesNext.eq_def]
  split <;> simp_all

/-! ## Gaps -/

theorem Gap.text_cons (f : Filler) (g : Gap) : Gap.text (f :: g) = f.text ++ g.text := rfl

theorem Gap.plain_cons (f : Filler) (g : Gap) : Gap.plain (f :: g) = f.plain ++ g.plain := rfl

theorem Gap.text_append (g g' : Gap) : Gap.text (g ++ g') = g.text ++ g'.text :=
  List.flatMap_append

theorem Gap.plain_append (g g' : Gap) : Gap.plain (g ++ g') = g.plain ++ g'.plain :=
  List.flatMap_append

/-- A gap keeps its blanks. -/
theorem eraseComments_gap (g : Gap) :
    eraseComments .plain (g.text ++ r) = g.plain.text ++ eraseComments .plain r := by
  induction g with
  | nil => rfl
  | cons f g ih =>
    rw [Gap.text_cons, Gap.plain_cons, Gap.text_append, List.append_assoc, List.append_assoc, ← ih]
    cases f with
    | blank c h =>
      refine eraseComments_cons_of_neutral ?_
      rcases eq_of_isSpace h with rfl | rfl | rfl | rfl <;> decide
    | line body h =>
      rw [Filler.text, List.cons_append, List.cons_append, List.append_assoc]
      exact eraseComments_line_body h
    | block body h =>
      rw [Filler.text, List.cons_append, List.cons_append, List.append_assoc]
      exact eraseComments_block_body h

/-- A closing bracket is found through a gap. -/
theorem closesNext_gap (g : Gap) : closesNext .plain (g.text ++ r) = closesNext .plain r := by
  induction g with
  | nil => rfl
  | cons f g ih =>
    rw [Gap.text_cons, List.append_assoc, ← ih]
    cases f with
    | blank c h =>
      rcases eq_of_isSpace h with rfl | rfl | rfl | rfl <;> exact closesNext_cons (by decide)
    | line body h =>
      rw [Filler.text, List.cons_append, List.cons_append, List.append_assoc]
      exact closesNext_line_body h
    | block body h =>
      rw [Filler.text, List.cons_append, List.cons_append, List.append_assoc]
      exact closesNext_block_body h

/-! ## Tokens -/

theorem eraseComments_string_cons {c : Char} (h : c ≠ '"' ∧ c ≠ '\\') :
    eraseComments .string (c :: r) = c :: eraseComments .string r := by
  rw [eraseComments]
  · simp [h.1]
  · exact fun _ _ hc ↦ absurd hc h.2

theorem not_quote_of_hexValue? {c : Char} {n : Nat} (h : hexValue? c = some n) :
    c ≠ '"' ∧ c ≠ '\\' := by
  constructor <;> rintro rfl <;> cases h

theorem hexValue?_of_hex4? {a b c d : Char} {n : Nat} (h : hex4? [a, b, c, d] = some n) :
    (∃ k, hexValue? a = some k) ∧ (∃ k, hexValue? b = some k) ∧ (∃ k, hexValue? c = some k) ∧
      ∃ k, hexValue? d = some k := by
  simp only [hex4?, Option.bind_eq_bind, Option.bind_eq_some_iff] at h
  obtain ⟨ka, ha, kb, hb, kc, hc, kd, hd, -⟩ := h
  exact ⟨⟨ka, ha⟩, ⟨kb, hb⟩, ⟨kc, hc⟩, ⟨kd, hd⟩⟩

theorem eraseComments_glyph (g : Glyph) :
    eraseComments .string (g.text ++ r) = g.text ++ eraseComments .string r := by
  cases g with
  | plain c h => exact eraseComments_string_cons ⟨h.1, h.2.1⟩
  | escape e c h => exact eraseComments.eq_4 e r
  | unit a b c d n h =>
    obtain ⟨⟨_, ha⟩, ⟨_, hb⟩, ⟨_, hc⟩, ⟨_, hd⟩⟩ := hexValue?_of_hex4? h
    simp only [Glyph.text, List.cons_append, List.nil_append]
    rw [eraseComments, eraseComments_string_cons (not_quote_of_hexValue? ha),
      eraseComments_string_cons (not_quote_of_hexValue? hb),
      eraseComments_string_cons (not_quote_of_hexValue? hc),
      eraseComments_string_cons (not_quote_of_hexValue? hd)]

/-- A string is kept, whatever it contains. -/
theorem eraseComments_quoted (glyphs : List Glyph) :
    eraseComments .plain (Glyph.quoted glyphs ++ r)
      = Glyph.quoted glyphs ++ eraseComments .plain r := by
  have hbody : eraseComments .string (Glyph.textAll glyphs ++ '"' :: r)
      = Glyph.textAll glyphs ++ '"' :: eraseComments .plain r := by
    induction glyphs with
    | nil =>
      rw [Glyph.textAll, List.flatMap_nil, List.nil_append, eraseComments]
      · simp
      · exact nofun
    | cons g glyphs ih =>
      rw [Glyph.textAll, List.flatMap_cons, List.append_assoc, eraseComments_glyph, List.append_assoc]
      exact congrArg _ ih
  rw [Glyph.quoted_append, Glyph.quoted_append, eraseComments_quote]
  exact congrArg _ hbody

theorem closesNext_of_opens {c : Char} (h : Opens c) : closesNext .plain (c :: r) = false := by
  obtain ⟨hslash, hblank, hbrace, hbracket, -⟩ := h
  simp [closesNext_cons hslash, hblank, hbrace, hbracket]

theorem isNeutral_of_isDigit {c : Char} (h : c.isDigit = true) : IsNeutral c := by
  refine ⟨?_, ?_, ?_⟩ <;> rintro rfl <;> cases h

theorem isNeutral_of_mem_exponent {e : Exponent} {c : Char} (h : c ∈ e.text) : IsNeutral c := by
  rw [Exponent.text, List.mem_cons, List.mem_append] at h
  rcases h with rfl | hsign | hdigits
  · rcases e.mark_eq with hmark | hmark <;> rw [hmark] <;> decide
  · rcases e.sign_eq with heq | heq | heq <;> rw [heq] at hsign
    · cases hsign
    · rw [List.mem_singleton.mp hsign]
      decide
    · rw [List.mem_singleton.mp hsign]
      decide
  · exact isNeutral_of_isDigit (e.isDigit_of_mem c hdigits)

theorem isNeutral_of_mem_numeral {n : Numeral} {c : Char} (h : c ∈ n.text) : IsNeutral c := by
  rw [Numeral.text, List.mem_append, List.mem_append, List.mem_append] at h
  rcases h with hminus | hwhole | hpoint | hexponent
  · split at hminus
    · rw [List.mem_singleton.mp hminus]
      decide
    · cases hminus
  · exact isNeutral_of_isDigit (n.isDigit_of_mem_whole c hwhole)
  · rw [Numeral.pointText] at hpoint
    split at hpoint
    · cases hpoint
    · rcases List.mem_cons.mp hpoint with rfl | hplaces
      · decide
      · exact isNeutral_of_isDigit (n.isDigit_of_mem_places c hplaces)
  · rw [Numeral.exponentText] at hexponent
    cases he : n.exponent with
    | none =>
      rw [he] at hexponent
      cases hexponent
    | some e =>
      rw [he] at hexponent
      exact isNeutral_of_mem_exponent hexponent

theorem isNeutral_of_mem_name {s : String} {v : Json} (h : (s, v) ∈ names) :
    ∀ c ∈ s.toList, IsNeutral c := by
  have hall : (names.all fun entry ↦ entry.1.toList.all fun c ↦ decide (IsNeutral c)) = true := by
    decide
  intro c hc
  exact of_decide_eq_true (List.all_eq_true.mp (List.all_eq_true.mp hall _ h) c hc)

theorem eraseComments_scalar (s : Scalar) :
    eraseComments .plain (s.text ++ r) = s.text ++ eraseComments .plain r := by
  cases s with
  | string glyphs => exact eraseComments_quoted glyphs
  | number n => exact eraseComments_append_of_neutral fun _ ↦ isNeutral_of_mem_numeral
  | name s v h => exact eraseComments_append_of_neutral (isNeutral_of_mem_name h)

theorem closesNext_items (items : Items) : closesNext .plain (items.text ++ r) = false := by
  obtain ⟨c, cs, hitems, hc⟩ := items.exists_opens
  rw [hitems]
  exact closesNext_of_opens hc

theorem closesNext_fields (fields : Fields) : closesNext .plain (fields.text ++ r) = false := by
  obtain ⟨cs, hfields⟩ := fields.exists_quote
  rw [hfields]
  exact closesNext_of_opens (by decide)

/-! ## Trees -/

theorem eraseComments_key (k : Key) :
    eraseComments .plain (k.text ++ r) = (k.regap Gap.plain).text ++ eraseComments .plain r := by
  simp only [Key.text, Key.regap, List.append_assoc, List.cons_append]
  rw [eraseComments_quoted, eraseComments_gap, eraseComments_cons_of_neutral (by decide),
    eraseComments_gap]

/-- A comma in front of a closing bracket is erased, and the gaps around it become one. -/
theorem eraseComments_trailing (h : closesNext .plain r = true) (g : Gap) (comma : Option Gap) :
    eraseComments .plain (g.text ++ (trailingText comma ++ r))
      = (Gap.plain (g ++ comma.getD [])).text ++ eraseComments .plain r := by
  rw [eraseComments_gap]
  cases comma with
  | none => simp [trailingText]
  | some g' =>
    rw [trailingText, List.cons_append, eraseComments_comma, closesNext_gap, if_pos h,
      eraseComments_gap, Option.getD_some, Gap.plain_append, Gap.text_append, List.append_assoc]

/-- A comma between two elements is kept. -/
theorem eraseComments_separator (h : closesNext .plain r = false) (g g' : Gap) :
    eraseComments .plain (g.text ++ ',' :: (g'.text ++ r))
      = g.plain.text ++ ',' :: (g'.plain.text ++ eraseComments .plain r) := by
  rw [eraseComments_gap, eraseComments_comma, closesNext_gap, h, if_neg Bool.false_ne_true,
    eraseComments_gap]

mutual

-- Elements and fields are scanned in front of their closing bracket: only there is a last comma erased.

/-- The scan erases the comments and the commas of a tree. -/
theorem eraseComments_tree (t : Tree) (r : List Char) :
    eraseComments .plain (t.text ++ r)
      = (t.regap Gap.plain).text ++ eraseComments .plain r := by
  cases t with
  | scalar s => exact eraseComments_scalar s
  | emptyArray g =>
    simp only [Tree.text, Tree.regap, List.cons_append, List.append_assoc, List.nil_append]
    rw [eraseComments_cons_of_neutral (by decide), eraseComments_gap,
      eraseComments_cons_of_neutral (by decide)]
  | emptyObject g =>
    simp only [Tree.text, Tree.regap, List.cons_append, List.append_assoc, List.nil_append]
    rw [eraseComments_cons_of_neutral (by decide), eraseComments_gap,
      eraseComments_cons_of_neutral (by decide)]
  | array g items =>
    simp only [Tree.text, Tree.regap, List.cons_append, List.append_assoc, List.nil_append]
    rw [eraseComments_cons_of_neutral (by decide), eraseComments_gap, eraseComments_items items rfl,
      eraseComments_cons_of_neutral (by decide)]
  | object g fields =>
    simp only [Tree.text, Tree.regap, List.cons_append, List.append_assoc, List.nil_append]
    rw [eraseComments_cons_of_neutral (by decide), eraseComments_gap, eraseComments_fields fields rfl,
      eraseComments_cons_of_neutral (by decide)]

theorem eraseComments_items (items : Items) {r : List Char} (h : closesNext .plain r = true) :
    eraseComments .plain (items.text ++ r)
      = (items.regap Gap.plain).text ++ eraseComments .plain r := by
  cases items with
  | last t g comma =>
    simp only [Items.text, Items.regap, List.append_assoc]
    rw [eraseComments_tree t, eraseComments_trailing h, trailingText, List.nil_append]
  | more t g g' rest =>
    simp only [Items.text, Items.regap, List.append_assoc, List.cons_append]
    rw [eraseComments_tree t, eraseComments_separator (closesNext_items rest),
      eraseComments_items rest h]

theorem eraseComments_fields (fields : Fields) {r : List Char} (h : closesNext .plain r = true) :
    eraseComments .plain (fields.text ++ r)
      = (fields.regap Gap.plain).text ++ eraseComments .plain r := by
  cases fields with
  | last k t g comma =>
    simp only [Fields.text, Fields.regap, List.append_assoc]
    rw [eraseComments_key, eraseComments_tree t, eraseComments_trailing h, trailingText,
      List.nil_append]
  | more k t g g' rest =>
    simp only [Fields.text, Fields.regap, List.append_assoc, List.cons_append]
    rw [eraseComments_key, eraseComments_tree t, eraseComments_separator (closesNext_fields rest),
      eraseComments_fields rest h]

end

/-! ## Documents -/

theorem withoutComments_source (d : Document) : withoutComments d.source = d.plain.source := by
  rw [withoutComments, Document.source, Document.source, String.toList_ofList]
  congr 1
  rw [Document.text, eraseComments_gap, eraseComments_tree, eraseComments_gap]
  cases h : d.unfinished with
  | none => rfl
  | some body =>
    have hbody : eraseComments .plain ('/' :: '/' :: body) = [] :=
      eraseComments_unfinished (d.not_mem_unfinished body h)
    rw [Option.elim_some, hbody]
    rfl

/-- **Erasing comments is exact.** The texts that are read are the plain documents, and they are left as they
are. From a document with the tokens of a plain one, whatever blanks, comments and commas in front of
closing brackets it has besides, exactly the comments and these commas are erased, and what is left is read
with the same value. -/
theorem withoutComments_exact :
    (∀ s v, read s = .ok v ↔ ∃ j : Document, j.plain = j ∧ j.source = s ∧ j.value = v) ∧
    (∀ s v, read s = .ok v → withoutComments s = s) ∧
    ∀ j d : Document, j.plain = j → d.bare = j.bare →
      withoutComments d.source = d.plain.source ∧
        read (withoutComments d.source) = .ok j.value := by
  refine ⟨fun s v ↦ ⟨fun h ↦ ?_, ?_⟩, fun s v h ↦ ?_, fun j d hj hd ↦ ?_⟩
  · obtain ⟨j, hsource, hvalue, hplain⟩ := exists_document h
    exact ⟨j, hplain, hsource, hvalue⟩
  · rintro ⟨j, hplain, rfl, rfl⟩
    rw [← read_plain j, hplain]
  · obtain ⟨j, rfl, -, hplain⟩ := exists_document h
    rw [withoutComments_source, hplain]
  · rw [withoutComments_source, read_plain, Document.value_eq_of_bare hd]
    exact ⟨rfl, rfl⟩

/-- An array with a string that looks like a comment and a comma, a comment, a comma before its bracket, and
a comment that ends the text. -/
theorem withoutComments_exact_array :
    withoutComments "[\"//,]\"]" = "[\"//,]\"]" ∧
      withoutComments "[\"//,]\"/*x*/,]//e" = "[\"//,]\"]" ∧
      read (withoutComments "[\"//,]\"/*x*/,]//e") = .ok (.arr [.str "//,]"]) := by
  let string : Tree := .scalar (.string [.plain '/' (by decide), .plain '/' (by decide),
    .plain ',' (by decide), .plain ']' (by decide)])
  let j : Document := ⟨[], .array [] (.last string [] none), [], none, by simp⟩
  let d : Document :=
    ⟨[], .array [] (.last string [.block ['x'] (by decide)] (some [])), [], some ['e'], by simp⟩
  obtain ⟨hread, hplain, hexact⟩ := withoutComments_exact
  have hj : read j.source = .ok j.value := (hread _ _).mpr ⟨j, rfl, rfl, rfl⟩
  exact ⟨hplain _ _ hj, hexact j d rfl rfl⟩

end FeatureAtlas.Json
