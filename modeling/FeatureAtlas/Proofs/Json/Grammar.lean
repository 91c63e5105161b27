import FeatureAtlas.Json.Reader
import FeatureAtlas.Text.Basic

/-!
# The grammar of commented JSON

A document is a tree of values with everything that stands between its tokens: blanks, comments and commas
in front of closing brackets. Its parts carry the proofs that they are well-formed, so each document writes
a commented JSON text, and has the value that its tokens say. A document is *plain* if erasing its
comments and such commas leaves it as it is: these are the JSON texts.
-/

namespace FeatureAtlas.Json

/-! ## Strings -/

/-- A character of a string as it is written: itself, a one-letter escape, or a code unit. -/
inductive Glyph where
  | plain (c : Char) (h : c ≠ '"' ∧ c ≠ '\\' ∧ 32 ≤ c.toNat)
  | escape (e c : Char) (h : simpleEscape? e = some c)
  | unit (a b c d : Char) (n : Nat) (h : hex4? [a, b, c, d] = some n)

namespace Glyph

/-- How a glyph is written. -/
def text : Glyph → List Char
  | plain c _ => [c]
  | escape e _ _ => ['\\', e]
  | unit a b c d _ _ => ['\\', 'u', a, b, c, d]

/-- The text of glyphs. -/
def textAll (glyphs : List Glyph) : List Char := glyphs.flatMap text

/-- Whether two code units are a surrogate pair. -/
def isPair (hi lo : Nat) : Bool :=
  0xd800 ≤ hi && hi ≤ 0xdbff && 0xdc00 ≤ lo && lo ≤ 0xdfff

/-- The character of a surrogate pair. -/
def pairChar (hi lo : Nat) : Char := Char.ofNat (0x10000 + (hi - 0xd800) * 0x400 + (lo - 0xdc00))

/-- The characters that glyphs stand for; code units that are a surrogate pair stand for one. -/
def decode : List Glyph → List Char
  | [] => []
  | plain c _ :: rest => c :: decode rest
  | escape _ c _ :: rest => c :: decode rest
  | [unit _ _ _ _ n _] => [unitChar n]
  | unit _ _ _ _ n _ :: unit a b c d m h :: rest =>
    if isPair n m then pairChar n m :: decode rest
    else unitChar n :: decode (unit a b c d m h :: rest)
  | unit _ _ _ _ n _ :: g :: rest => unitChar n :: decode (g :: rest)

/-- A string as it is written. -/
def quoted (glyphs : List Glyph) : List Char := '"' :: (textAll glyphs ++ ['"'])

theorem quoted_append (glyphs : List Glyph) (r : List Char) :
    quoted glyphs ++ r = '"' :: (textAll glyphs ++ '"' :: r) := by
  simp [quoted]

end Glyph

/-! ## Numbers -/

/-- The exponent of a number. -/
structure Exponent where
  mark : Char
  sign : List Char
  digits : List Char
  mark_eq : mark = 'e' ∨ mark = 'E'
  sign_eq : sign = [] ∨ sign = ['+'] ∨ sign = ['-']
  digits_ne : digits ≠ []
  isDigit_of_mem : ∀ c ∈ digits, c.isDigit = true

namespace Exponent

/-- How an exponent is written. -/
def text (e : Exponent) : List Char := e.mark :: (e.sign ++ e.digits)

/-- The power of ten. -/
def value (e : Exponent) : Int :=
  if e.sign = ['-'] then -Int.ofNat (digitsNat e.digits) else Int.ofNat (digitsNat e.digits)

end Exponent

/-- A number as it is written. The whole part has no leading zero; there may be no places. -/
structure Numeral where
  negative : Bool
  whole : List Char
  places : List Char
  exponent : Option Exponent
  whole_eq : whole = ['0'] ∨ whole ≠ [] ∧ whole.head? ≠ some '0'
  isDigit_of_mem_whole : ∀ c ∈ whole, c.isDigit = true
  isDigit_of_mem_places : ∀ c ∈ places, c.isDigit = true

namespace Numeral

theorem whole_ne (n : Numeral) : n.whole ≠ [] := by
  rcases n.whole_eq with h | ⟨h, -⟩
  · rw [h]
    exact List.cons_ne_nil _ _
  · exact h

/-- How the places are written. -/
def pointText (n : Numeral) : List Char := if n.places = [] then [] else '.' :: n.places

/-- How the exponent is written, if there is one. -/
def exponentText (n : Numeral) : List Char := n.exponent.elim [] Exponent.text

/-- How a number is written. -/
def text (n : Numeral) : List Char :=
  (if n.negative then ['-'] else []) ++ (n.whole ++ (n.pointText ++ n.exponentText))

/-- The value of a number: without places and exponent an integer, else the nearest double. -/
def value (n : Numeral) : Json :=
  match n.exponent with
  | some e =>
    float (Binary64.ofDecimal n.negative (digitsNat (n.whole ++ n.places))
      (e.value - Int.ofNat n.places.length))
  | none =>
    if n.places = [] then int (if n.negative then -Int.ofNat (digitsNat n.whole)
      else Int.ofNat (digitsNat n.whole))
    else float (Binary64.ofDecimal n.negative (digitsNat (n.whole ++ n.places))
      (-Int.ofNat n.places.length))

end Numeral

/-! ## Scalars -/

/-- A value of one token. -/
inductive Scalar where
  | string (glyphs : List Glyph)
  | number (n : Numeral)
  | name (name : String) (value : Json) (h : (name, value) ∈ names)

namespace Scalar

/-- How a scalar is written. -/
def text : Scalar → List Char
  | string glyphs => Glyph.quoted glyphs
  | number n => n.text
  | name s _ _ => s.toList

/-- The value of a scalar. -/
def value : Scalar → Json
  | string glyphs => .str (String.ofList (Glyph.decode glyphs))
  | number n => n.value
  | name _ v _ => v

end Scalar

/-! ## Gaps -/

/-- What may stand between two tokens: a blank, a comment up to the end of its line, or a comment between
its marks. -/
inductive Filler where
  | blank (c : Char) (h : isSpace c = true)
  | line (body : List Char) (h : '\n' ∉ body)
  | block (body : List Char) (h : ¬ ['*', '/'] <:+: body)

namespace Filler

/-- How a filler is written. -/
def text : Filler → List Char
  | blank c _ => [c]
  | line body _ => '/' :: '/' :: (body ++ ['\n'])
  | block body _ => '/' :: '*' :: (body ++ ['*', '/'])

/-- A filler without its comment; the end of its line stays. -/
def plain : Filler → List Filler
  | blank c h => [blank c h]
  | line _ _ => [blank '\n' rfl]
  | block _ _ => []

end Filler

/-- Everything between two tokens. -/
abbrev Gap := List Filler

namespace Gap

/-- How a gap is written. -/
def text (g : Gap) : List Char := g.flatMap Filler.text

/-- A gap without its comments. -/
def plain (g : Gap) : Gap := g.flatMap Filler.plain

end Gap

/-! ## Trees -/

/-- The key of a field with what stands around its colon. -/
structure Key where
  glyphs : List Glyph
  before : Gap
  after : Gap

namespace Key

/-- How a key and its colon are written. -/
def text (k : Key) : List Char := Glyph.quoted k.glyphs ++ (k.before.text ++ ':' :: k.after.text)

/-- The name that a key stands for. -/
def name (k : Key) : String := String.ofList (Glyph.decode k.glyphs)

/-- The key with other gaps. -/
def regap (f : Gap → Gap) (k : Key) : Key := ⟨k.glyphs, f k.before, f k.after⟩

end Key

mutual

/-- A value with the gaps inside. -/
inductive Tree where
  | scalar (s : Scalar)
  | emptyArray (g : Gap)
  | emptyObject (g : Gap)
  | array (g : Gap) (items : Items)
  | object (g : Gap) (fields : Fields)

/-- The elements of an array; the last may have a comma behind it. -/
inductive Items where
  | last (t : Tree) (g : Gap) (comma : Option Gap)
  | more (t : Tree) (g g' : Gap) (rest : Items)

/-- The fields of an object; the last may have a comma behind it. -/
inductive Fields where
  | last (k : Key) (t : Tree) (g : Gap) (comma : Option Gap)
  | more (k : Key) (t : Tree) (g g' : Gap) (rest : Fields)

end

/-- A comma in front of a closing bracket, with the gap behind it. -/
def trailingText : Option Gap → List Char
  | none => []
  | some g => ',' :: g.text

mutual

/-- How a value is written. -/
def Tree.text : Tree → List Char
  | .scalar s => s.text
  | .emptyArray g => '[' :: (g.text ++ [']'])
  | .emptyObject g => '{' :: (g.text ++ ['}'])
  | .array g items => '[' :: (g.text ++ (items.text ++ [']']))
  | .object g fields => '{' :: (g.text ++ (fields.text ++ ['}']))

/-- How elements are written. -/
def Items.text : Items → List Char
  | .last t g comma => t.text ++ (g.text ++ trailingText comma)
  | .more t g g' rest => t.text ++ (g.text ++ ',' :: (g'.text ++ rest.text))

/-- How fields are written. -/
def Fields.text : Fields → List Char
  | .last k t g comma => k.text ++ (t.text ++ (g.text ++ trailingText comma))
  | .more k t g g' rest => k.text ++ (t.text ++ (g.text ++ ',' :: (g'.text ++ rest.text)))

end

mutual

/-- The value that a tree writes; a repeated key takes its last value. -/
def Tree.value : Tree → Json
  | .scalar s => s.value
  | .emptyArray _ => .arr []
  | .emptyObject _ => .obj []
  | .array _ items => .arr items.values
  | .object _ fields => .obj (Table.ofEntries fields.entries)

/-- The values of elements. -/
def Items.values : Items → List Json
  | .last t _ _ => [t.value]
  | .more t _ _ rest => t.value :: rest.values

/-- The names and values of fields. -/
def Fields.entries : Fields → List (String × Json)
  | .last k t _ _ => [(k.name, t.value)]
  | .more k t _ _ rest => (k.name, t.value) :: rest.entries

end

mutual

/-- The tree with other gaps, and without commas in front of closing brackets. -/
def Tree.regap (f : Gap → Gap) : Tree → Tree
  | .scalar s => .scalar s
  | .emptyArray g => .emptyArray (f g)
  | .emptyObject g => .emptyObject (f g)
  | .array g items => .array (f g) (items.regap f)
  | .object g fields => .object (f g) (fields.regap f)

/-- The elements with other gaps. -/
def Items.regap (f : Gap → Gap) : Items → Items
  | .last t g comma => .last (t.regap f) (f (g ++ comma.getD [])) none
  | .more t g g' rest => .more (t.regap f) (f g) (f g') (rest.regap f)

/-- The fields with other gaps. -/
def Fields.regap (f : Gap → Gap) : Fields → Fields
  | .last k t g comma => .last (k.regap f) (t.regap f) (f (g ++ comma.getD [])) none
  | .more k t g g' rest => .more (k.regap f) (t.regap f) (f g) (f g') (rest.regap f)

end

mutual

/-- Gaps say nothing about the value. -/
theorem Tree.value_regap (f : Gap → Gap) (t : Tree) : (t.regap f).value = t.value := by
  cases t with
  | scalar s | emptyArray g | emptyObject g => rfl
  | array g items => exact congrArg Json.arr (items.values_regap f)
  | object g fields =>
    exact congrArg (fun entries ↦ Json.obj (Table.ofEntries entries)) (fields.entries_regap f)

theorem Items.values_regap (f : Gap → Gap) (items : Items) :
    (items.regap f).values = items.values := by
  cases items with
  | last t g comma => rw [Items.regap, Items.values, Items.values, t.value_regap f]
  | more t g g' rest =>
    rw [Items.regap, Items.values, Items.values, t.value_regap f, rest.values_regap f]

theorem Fields.entries_regap (f : Gap → Gap) (fields : Fields) :
    (fields.regap f).entries = fields.entries := by
  cases fields with
  | last k t g comma =>
    rw [Fields.regap, Fields.entries, Fields.entries, t.value_regap f]
    rfl
  | more k t g g' rest =>
    rw [Fields.regap, Fields.entries, Fields.entries, t.value_regap f, rest.entries_regap f]
    rfl

end

/-! ## First characters -/

theorem eq_of_isSpace {c : Char} (h : isSpace c = true) :
    c = ' ' ∨ c = '\t' ∨ c = '\n' ∨ c = '\r' := by
  simpa [isSpace, or_assoc] using h

/-- A character at which a value may start: no comment, no blank, no closing bracket and no byte order
mark. -/
def Opens (c : Char) : Prop :=
  c ≠ '/' ∧ Text.isBlank c = false ∧ c ≠ '}' ∧ c ≠ ']' ∧ c ≠ '\uFEFF'

instance (c : Char) : Decidable (Opens c) := inferInstanceAs (Decidable (_ ∧ _))

theorem opens_of_isDigit {c : Char} (h : c.isDigit = true) : Opens c := by
  have hblank : Text.isBlank c = false := by
    have hrange : 48 ≤ c.toNat ∧ c.toNat ≤ 57 := Char.isDigit_iff_toNat.mp h
    simp only [Text.isBlank, Bool.or_eq_false_iff, Bool.and_eq_false_iff, decide_eq_false_iff_not,
      beq_eq_false_iff_ne]
    omega
  refine ⟨?_, hblank, ?_, ?_, ?_⟩ <;> rintro rfl <;> cases h

theorem Numeral.exists_head (n : Numeral) :
    ∃ c cs, n.text = c :: cs ∧ (c = '-' ∨ c.isDigit = true) := by
  rw [text]
  cases n.negative with
  | true => exact ⟨'-', _, rfl, Or.inl rfl⟩
  | false =>
    obtain ⟨c, cs, hwhole⟩ := List.exists_cons_of_ne_nil n.whole_ne
    have hdigit := n.isDigit_of_mem_whole c (hwhole ▸ List.mem_cons_self)
    exact ⟨c, _, by rw [hwhole]; rfl, Or.inr hdigit⟩

theorem Scalar.exists_opens (s : Scalar) : ∃ c cs, s.text = c :: cs ∧ Opens c := by
  cases s with
  | string glyphs => exact ⟨'"', _, rfl, by decide⟩
  | number n =>
    obtain ⟨c, cs, htext, rfl | hdigit⟩ := n.exists_head
    · exact ⟨'-', cs, htext, by decide⟩
    · exact ⟨c, cs, htext, opens_of_isDigit hdigit⟩
  | name s v h =>
    simp only [names, List.mem_cons, Prod.mk.injEq, List.not_mem_nil, or_false] at h
    rcases h with ⟨rfl, -⟩ | ⟨rfl, -⟩ | ⟨rfl, -⟩ | ⟨rfl, -⟩ | ⟨rfl, -⟩ | ⟨rfl, -⟩ <;>
      exact ⟨_, _, rfl, by decide⟩

theorem Tree.exists_opens (t : Tree) : ∃ c cs, t.text = c :: cs ∧ Opens c := by
  cases t with
  | scalar s => exact s.exists_opens
  | emptyArray g | array g items => exact ⟨'[', _, rfl, by decide⟩
  | emptyObject g | object g fields => exact ⟨'{', _, rfl, by decide⟩

theorem Items.exists_opens (items : Items) : ∃ c cs, items.text = c :: cs ∧ Opens c := by
  cases items with
  | last t g comma | more t g g' rest =>
    obtain ⟨c, cs, ht, hc⟩ := t.exists_opens
    exact ⟨c, _, by rw [text, ht, List.cons_append], hc⟩

theorem Fields.exists_quote (fields : Fields) : ∃ cs, fields.text = '"' :: cs := by
  cases fields with
  | last k t g comma | more k t g g' rest => exact ⟨_, rfl⟩

/-! ## Documents -/

/-- A whole commented text: a value between gaps, and maybe a line comment that the text ends in. -/
structure Document where
  before : Gap
  tree : Tree
  after : Gap
  unfinished : Option (List Char)
  not_mem_unfinished : ∀ body ∈ unfinished, '\n' ∉ body

namespace Document

/-- The text of a document. -/
def text (d : Document) : List Char :=
  d.before.text ++ (d.tree.text ++ (d.after.text ++
    d.unfinished.elim [] fun body ↦ '/' :: '/' :: body))

/-- The document as a string. -/
def source (d : Document) : String := String.ofList d.text

/-- The value of a document. -/
def value (d : Document) : Json := d.tree.value

/-- The document with other gaps and nothing behind the last. -/
def regap (f : Gap → Gap) (d : Document) : Document where
  before := f d.before
  tree := d.tree.regap f
  after := f d.after
  unfinished := none
  not_mem_unfinished := nofun

/-- The document with its comments and the commas in front of closing brackets erased. -/
def plain (d : Document) : Document := d.regap Gap.plain

/-- The tokens of a document: nothing stands between them. -/
def bare (d : Document) : Document := d.regap fun _ ↦ []

theorem value_eq_of_bare {d j : Document} (h : d.bare = j.bare) : d.value = j.value :=
  calc d.value = d.bare.value := (d.tree.value_regap _).symm
    _ = j.bare.value := congrArg value h
    _ = j.value := j.tree.value_regap _

end Document

end FeatureAtlas.Json
