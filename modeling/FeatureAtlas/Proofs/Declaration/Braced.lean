import FeatureAtlas.Declaration.Scan
import Mathlib.Data.List.Infix

/-!
# The grammar of braced blocks

A block is a pair of braces around chunks, and a chunk is a block, a string literal, a comment, or a single
character that none of these starts with. The scanner knows nothing of chunks: it carries the number of open
blocks and what it is inside of. `Closes n` says what it has to read from there, the rests of `n` blocks one
after the other, and `Finishes` adds the rest of the literal or comment that it is inside of.

What the scanner reads is of this form, whatever it returns; and chunks in front of a closing brace are read
as a whole. Both together make the scanner the grammar, for every text and every offset.
-/

namespace FeatureAtlas.Declaration

/-! ## The grammar -/

/-- The inside of a string literal; a backslash escapes the character after it. -/
inductive IsQuoted (quote : Char) : List Char → Prop where
  | nil : IsQuoted quote []
  | plain {c : Char} {text : List Char} (other : c ≠ quote) (unescaped : c ≠ '\\')
    (rest : IsQuoted quote text) : IsQuoted quote (c :: text)
  | escape {c : Char} {text : List Char} (rest : IsQuoted quote text) :
    IsQuoted quote ('\\' :: c :: text)

/-- A slash in front of a text would start a comment. -/
def StartsComment (rest : List Char) : Prop := rest.head? = some '/' ∨ rest.head? = some '*'

mutual

/-- A block: chunks between braces. -/
inductive IsBlock : List Char → Prop where
  | braces {body : List Char} (inside : IsChunks body) : IsBlock ('{' :: (body ++ ['}']))

/-- Any number of chunks. A slash that is a chunk of its own does not start a comment. -/
inductive IsChunks : List Char → Prop where
  | nil : IsChunks []
  | cons {chunk rest : List Char} (first : IsChunk chunk)
    (apart : chunk = ['/'] → ¬StartsComment rest) (others : IsChunks rest) :
    IsChunks (chunk ++ rest)

/-- A chunk: a block, a string literal, a comment, or a single character. -/
inductive IsChunk : List Char → Prop where
  | block {text : List Char} (h : IsBlock text) : IsChunk text
  | literal {quote : Char} {text : List Char} (delimits : isQuote quote = true)
    (inside : IsQuoted quote text) : IsChunk (quote :: (text ++ [quote]))
  | lineComment {text : List Char} (one_line : '\n' ∉ text) :
    IsChunk ('/' :: '/' :: (text ++ ['\n']))
  | blockComment {text : List Char} (unclosed : ¬['*', '/'] <:+: text) :
    IsChunk ('/' :: '*' :: (text ++ ['*', '/']))
  | single {c : Char} (unquoted : isQuote c = false) (no_open : c ≠ '{') (no_close : c ≠ '}') :
    IsChunk [c]

end

/-- The rests of a number of blocks, one after the other. -/
inductive Closes : Nat → List Char → Prop where
  | nil : Closes 0 []
  | cons {n : Nat} {body rest : List Char} (inside : IsChunks body) (outer : Closes n rest) :
    Closes (n + 1) (body ++ '}' :: rest)

/-- The rest of a region, and then of a number of blocks. -/
def Finishes (n : Nat) (cs : List Char) : Region → Prop
  | .code => Closes n cs
  | .lineComment => ∃ text rest, cs = text ++ '\n' :: rest ∧ '\n' ∉ text ∧ Closes n rest
  | .blockComment =>
    ∃ text rest, cs = text ++ '*' :: '/' :: rest ∧ ¬['*', '/'] <:+: text ∧ Closes n rest
  | .literal quote => ∃ text rest, cs = text ++ quote :: rest ∧ IsQuoted quote text ∧ Closes n rest

/-! ## What the scanner reads -/

/-- A chunk may stand in front of the rest of a block. -/
theorem Closes.chunk {n : Nat} {chunk cs : List Char} (h : Closes (n + 1) cs) (first : IsChunk chunk)
    (apart : chunk = ['/'] → ¬StartsComment cs) : Closes (n + 1) (chunk ++ cs) := by
  cases h with
  | @cons _ body rest inside outer =>
    have hapart : chunk = ['/'] → ¬StartsComment body := by
      intro hslash hstarts
      refine apart hslash ?_
      cases body with
      | nil => exact absurd hstarts (by simp [StartsComment])
      | cons c body => exact hstarts
    rw [← List.append_assoc]
    exact .cons (.cons first hapart inside) outer

/-- An opening brace makes one block of the two that are closed first. -/
theorem Closes.block {n : Nat} {cs : List Char} (h : Closes (n + 2) cs) :
    Closes (n + 1) ('{' :: cs) := by
  cases h with
  | @cons _ body rest inside outer =>
    have hblock : IsChunk ('{' :: (body ++ ['}'])) := .block (.braces inside)
    have hclosed := outer.chunk hblock (by simp)
    simpa using hclosed

theorem Closes.ne_nil {n : Nat} {cs : List Char} (h : Closes (n + 1) cs) : cs ≠ [] := by
  cases h with
  | cons inside outer => simp

/-- What starts a prefix starts the text. -/
theorem exists_cons_of_prefix {c : Char} {found cs : List Char} (h : found <+: cs)
    (hhead : found.head? = some c) : ∃ rest, cs = c :: rest := by
  obtain ⟨rest, rfl⟩ := h
  cases found with
  | nil => cases hhead
  | cons d found =>
    obtain rfl : d = c := Option.some.inj hhead
    exact ⟨found ++ rest, rfl⟩

/-- Where no comment starts, a slash is a chunk of its own. -/
theorem not_startsComment {c : Char} {found cs : List Char} (h : found <+: cs)
    (hline : ∀ rest, c = '/' → cs = '/' :: rest → False)
    (hblock : ∀ rest, c = '/' → cs = '*' :: rest → False) (hc : c = '/') :
    ¬StartsComment found := by
  rintro (hhead | hhead)
  · obtain ⟨rest, hcs⟩ := exists_cons_of_prefix h hhead
    exact hline rest hc hcs
  · obtain ⟨rest, hcs⟩ := exists_cons_of_prefix h hhead
    exact hblock rest hc hcs

theorem Finishes.lineComment_cons {n : Nat} {c : Char} {cs : List Char}
    (h : Finishes n cs (if c == '\n' then .code else .lineComment)) :
    Finishes n (c :: cs) .lineComment := by
  by_cases hc : c = '\n'
  · rw [if_pos (by simp [hc])] at h
    exact ⟨[], cs, by rw [hc]; rfl, List.not_mem_nil, h⟩
  · rw [if_neg (by simp [hc])] at h
    obtain ⟨text, rest, rfl, htext, hrest⟩ := h
    exact ⟨c :: text, rest, rfl, by simp [Ne.symm hc, htext], hrest⟩

theorem Finishes.blockComment_cons {n : Nat} {c : Char} {found cs : List Char} (hfront : found <+: cs)
    (hopen : ∀ rest, c = '*' → cs = '/' :: rest → False) (h : Finishes n found .blockComment) :
    Finishes n (c :: found) .blockComment := by
  obtain ⟨text, rest, rfl, htext, hrest⟩ := h
  refine ⟨c :: text, rest, rfl, ?_, hrest⟩
  rw [List.infix_cons_iff]
  rintro (hstart | hinside)
  · -- the comment would have been closed here
    obtain ⟨rfl, hslash⟩ := List.cons_prefix_cons.mp hstart
    have hhead : (text ++ '*' :: '/' :: rest).head? = some '/' := by
      obtain ⟨more, rfl⟩ := hslash
      rfl
    obtain ⟨tail, hcs⟩ := exists_cons_of_prefix hfront hhead
    exact hopen tail rfl hcs
  · exact htext hinside

theorem Finishes.literal_cons {n : Nat} {quote c : Char} {cs : List Char} (hc : c ≠ '\\')
    (h : Finishes n cs (if c == quote then .code else .literal quote)) :
    Finishes n (c :: cs) (.literal quote) := by
  by_cases hquote : c = quote
  · rw [if_pos (by simp [hquote])] at h
    exact ⟨[], cs, by rw [hquote]; rfl, .nil, h⟩
  · rw [if_neg (by simp [hquote])] at h
    obtain ⟨text, rest, rfl, htext, hrest⟩ := h
    exact ⟨c :: text, rest, rfl, .plain hquote hc htext, hrest⟩

/-- **What the scanner reads is a prefix of the form that it should have.** -/
theorem closeBraces_sound {region : Region} {n : Nat} {cs found : List Char}
    (h : closeBraces region (n + 1) cs = some found) :
    found <+: cs ∧ Finishes (n + 1) found region := by
  generalize hdepth : n + 1 = depth at h
  fun_induction closeBraces region depth cs generalizing n found with
  | case1 => cases h
  | case2 depth c cs ih =>
    obtain ⟨found, hfound, rfl⟩ := Option.map_eq_some_iff.mp h
    obtain ⟨hfront, hends⟩ := ih hdepth hfound
    exact ⟨List.cons_prefix_cons.mpr ⟨rfl, hfront⟩, hends.lineComment_cons⟩
  | case3 depth cs ih =>
    obtain ⟨found, hfound, rfl⟩ := Option.map_eq_some_iff.mp h
    obtain ⟨hfront, hends⟩ := ih hdepth hfound
    exact ⟨by simpa using hfront, [], found, rfl, by simp, hends⟩
  | case4 depth c cs hopen ih =>
    obtain ⟨found, hfound, rfl⟩ := Option.map_eq_some_iff.mp h
    obtain ⟨hfront, hends⟩ := ih hdepth hfound
    exact ⟨List.cons_prefix_cons.mpr ⟨rfl, hfront⟩, hends.blockComment_cons hfront hopen⟩
  | case5 quote depth c cs ih =>
    obtain ⟨found, hfound, rfl⟩ := Option.map_eq_some_iff.mp h
    obtain ⟨hfront, text, rest, rfl, htext, hrest⟩ := ih hdepth hfound
    exact ⟨by simpa using hfront, '\\' :: c :: text, rest, rfl, .escape htext, hrest⟩
  | case6 quote depth c cs hescape ih =>
    obtain ⟨found, hfound, rfl⟩ := Option.map_eq_some_iff.mp h
    obtain ⟨hfront, hends⟩ := ih hdepth hfound
    have hc : c ≠ '\\' := by
      -- a backslash at the end of the text leaves the literal open
      rintro rfl
      cases cs with
      | nil => cases hfound
      | cons d cs => exact hescape d cs rfl rfl
    exact ⟨List.cons_prefix_cons.mpr ⟨rfl, hfront⟩, hends.literal_cons hc⟩
  | case7 depth cs ih =>
    obtain ⟨found, hfound, rfl⟩ := Option.map_eq_some_iff.mp h
    obtain ⟨hfront, text, rest, rfl, htext, hrest⟩ := ih hdepth hfound
    subst hdepth
    have hclosed := hrest.chunk (.lineComment htext) (by simp)
    exact ⟨by simpa using hfront, by simpa [Finishes] using hclosed⟩
  | case8 depth cs ih =>
    obtain ⟨found, hfound, rfl⟩ := Option.map_eq_some_iff.mp h
    obtain ⟨hfront, text, rest, rfl, htext, hrest⟩ := ih hdepth hfound
    subst hdepth
    have hclosed := hrest.chunk (.blockComment htext) (by simp)
    exact ⟨by simpa using hfront, by simpa [Finishes] using hclosed⟩
  | case9 depth c cs hline hblock hquote ih =>
    obtain ⟨found, hfound, rfl⟩ := Option.map_eq_some_iff.mp h
    obtain ⟨hfront, text, rest, rfl, htext, hrest⟩ := ih hdepth hfound
    subst hdepth
    have hclosed := hrest.chunk (.literal hquote htext) (by simp)
    exact ⟨List.cons_prefix_cons.mpr ⟨rfl, hfront⟩, by simpa [Finishes] using hclosed⟩
  | case10 depth c cs hline hblock hquote hbrace ih =>
    obtain ⟨found, hfound, rfl⟩ := Option.map_eq_some_iff.mp h
    obtain ⟨hfront, hends⟩ := ih (congrArg (· + 1) hdepth) hfound
    obtain rfl : c = '{' := eq_of_beq hbrace
    subst hdepth
    exact ⟨List.cons_prefix_cons.mpr ⟨rfl, hfront⟩, Closes.block hends⟩
  | case11 c cs hline hblock hquote hopen hclose m ih =>
    obtain ⟨found, hfound, rfl⟩ := Option.map_eq_some_iff.mp h
    obtain ⟨hfront, hends⟩ := ih rfl hfound
    obtain rfl : c = '}' := eq_of_beq hclose
    obtain rfl : n = m + 1 := Nat.succ.inj hdepth
    exact ⟨List.cons_prefix_cons.mpr ⟨rfl, hfront⟩, Closes.cons .nil hends⟩
  | case12 depth c cs hline hblock hquote hopen hclose hlast =>
    obtain rfl : c = '}' := eq_of_beq hclose
    obtain rfl := Option.some.inj h
    subst hdepth
    have hn : n = 0 := by
      cases n with
      | zero => rfl
      | succ m => exact absurd rfl (hlast m)
    subst hn
    exact ⟨⟨cs, rfl⟩, Closes.cons .nil .nil⟩
  | case13 depth c cs hline hblock hquote hopen hclose ih =>
    obtain ⟨found, hfound, rfl⟩ := Option.map_eq_some_iff.mp h
    obtain ⟨hfront, hends⟩ := ih hdepth hfound
    subst hdepth
    have hsingle : IsChunk [c] := .single (by simpa using hquote) (by simpa using hopen)
      (by simpa using hclose)
    have hclosed := Closes.chunk hends hsingle fun hslash ↦
      not_startsComment hfront hline hblock (List.cons.inj hslash).1
    exact ⟨List.cons_prefix_cons.mpr ⟨rfl, hfront⟩, hclosed⟩

/-! ## Chunks are read as a whole -/

theorem ne_backslash_of_isQuote {c : Char} (h : isQuote c = true) : c ≠ '\\' := by
  rintro rfl
  cases h

theorem closeBraces_literal {quote : Char} {text : List Char} (hquote : isQuote quote = true)
    (h : IsQuoted quote text) (n : Nat) (rest : List Char) :
    closeBraces (.literal quote) n (text ++ quote :: rest)
      = (closeBraces .code n rest).map (text ++ quote :: ·) := by
  have hslash : quote ≠ '\\' := ne_backslash_of_isQuote hquote
  induction h with
  | nil =>
    rw [List.nil_append, closeBraces.eq_6 _ _ _ _ fun _ _ h _ ↦ hslash h, if_pos (by simp)]
    rfl
  | @plain c text other unescaped _ ih =>
    rw [List.cons_append, closeBraces.eq_6 _ _ _ _ fun _ _ h _ ↦ unescaped h, if_neg (by simp [other]),
      ih, Option.map_map]
    rfl
  | @escape c text _ ih =>
    rw [List.cons_append, List.cons_append, closeBraces, ih, Option.map_map]
    rfl

theorem closeBraces_lineComment {text : List Char} (h : '\n' ∉ text) (n : Nat) (rest : List Char) :
    closeBraces .lineComment n (text ++ '\n' :: rest)
      = (closeBraces .code n rest).map (text ++ '\n' :: ·) := by
  induction text with
  | nil => rfl
  | cons c text ih =>
    obtain ⟨hc, htext⟩ := List.ne_and_not_mem_of_not_mem_cons h
    rw [List.cons_append, closeBraces, if_neg (by simp [Ne.symm hc]), ih htext, Option.map_map]
    rfl

theorem closeBraces_blockComment {text : List Char} (h : ¬['*', '/'] <:+: text) (n : Nat)
    (rest : List Char) :
    closeBraces .blockComment n (text ++ '*' :: '/' :: rest)
      = (closeBraces .code n rest).map (text ++ '*' :: '/' :: ·) := by
  induction text with
  | nil => rfl
  | cons c text ih =>
    have htext : ¬['*', '/'] <:+: text := fun hinside ↦ h (List.infix_cons_iff.mpr (Or.inr hinside))
    have hopen : ∀ tail, c = '*' → text ++ '*' :: '/' :: rest = '/' :: tail → False := by
      rintro tail rfl htail
      cases text with
      | nil => cases htail
      | cons d text =>
        obtain rfl : d = '/' := (List.cons.inj htail).1
        exact h (List.infix_cons_iff.mpr (Or.inl ⟨text, rfl⟩))
    rw [List.cons_append, closeBraces.eq_4 _ _ _ hopen, ih htext, Option.map_map]
    rfl

theorem closeBraces_quote {c : Char} (h : isQuote c = true) (n : Nat) (rest : List Char) :
    closeBraces .code n (c :: rest) = (closeBraces (.literal c) n rest).map (c :: ·) := by
  have hslash : c ≠ '/' := by
    rintro rfl
    cases h
  rw [closeBraces.eq_def]
  split <;> simp_all

theorem closeBraces_open (n : Nat) (rest : List Char) :
    closeBraces .code n ('{' :: rest) = (closeBraces .code (n + 1) rest).map ('{' :: ·) := by
  rw [closeBraces.eq_def]
  rfl

theorem closeBraces_close (n : Nat) (rest : List Char) :
    closeBraces .code (n + 2) ('}' :: rest) = (closeBraces .code (n + 1) rest).map ('}' :: ·) := by
  rw [closeBraces.eq_def]
  rfl

theorem closeBraces_single {c : Char} {rest : List Char} (hquote : isQuote c = false)
    (hopen : c ≠ '{') (hclose : c ≠ '}') (hcomment : c = '/' → ¬StartsComment rest) (n : Nat) :
    closeBraces .code n (c :: rest) = (closeBraces .code n rest).map (c :: ·) := by
  rw [closeBraces.eq_def]
  split <;> simp_all [StartsComment]

mutual

theorem closeBraces_block : ∀ {block : List Char}, IsBlock block → ∀ (n : Nat) (rest : List Char),
    closeBraces .code (n + 1) (block ++ rest) = (closeBraces .code (n + 1) rest).map (block ++ ·)
  | _, @IsBlock.braces body inside, n, rest => by
    have hbody := closeBraces_chunks inside (n + 1) rest
    rw [closeBraces_close, Option.map_map] at hbody
    have htext : '{' :: (body ++ ['}']) ++ rest = '{' :: (body ++ '}' :: rest) := by simp
    rw [htext, closeBraces_open, hbody, Option.map_map]
    congr 1
    funext tail
    simp

theorem closeBraces_chunks : ∀ {body : List Char}, IsChunks body → ∀ (n : Nat) (rest : List Char),
    closeBraces .code (n + 1) (body ++ '}' :: rest)
      = (closeBraces .code (n + 1) ('}' :: rest)).map (body ++ ·)
  | _, .nil, n, rest => by
    rw [List.nil_append]
    exact Option.map_id'.symm
  | _, @IsChunks.cons chunk others first apart inside, n, rest => by
    -- behind the last chunk stands a brace, which starts no comment
    have hfollows : chunk = ['/'] → ¬StartsComment (others ++ '}' :: rest) := by
      intro hslash
      cases others with
      | nil => simp [StartsComment]
      | cons c others => exact apart hslash
    have hothers := closeBraces_chunks inside n rest
    rw [List.append_assoc, closeBraces_chunk first n _ hfollows, hothers, Option.map_map]
    congr 1
    funext tail
    exact (List.append_assoc _ _ _).symm

theorem closeBraces_chunk : ∀ {chunk : List Char}, IsChunk chunk → ∀ (n : Nat) (rest : List Char),
    (chunk = ['/'] → ¬StartsComment rest) →
    closeBraces .code (n + 1) (chunk ++ rest) = (closeBraces .code (n + 1) rest).map (chunk ++ ·)
  | _, .block h, n, rest, _ => closeBraces_block h n rest
  | _, @IsChunk.literal quote text delimits inside, n, rest, _ => by
    have htext : quote :: (text ++ [quote]) ++ rest = quote :: (text ++ quote :: rest) := by simp
    rw [htext, closeBraces_quote delimits, closeBraces_literal delimits inside, Option.map_map]
    congr 1
    funext tail
    simp
  | _, @IsChunk.lineComment text one_line, n, rest, _ => by
    have htext : '/' :: '/' :: (text ++ ['\n']) ++ rest = '/' :: '/' :: (text ++ '\n' :: rest) := by
      simp
    rw [htext, closeBraces, closeBraces_lineComment one_line, Option.map_map]
    congr 1
    funext tail
    simp
  | _, @IsChunk.blockComment text unclosed, n, rest, _ => by
    have htext : '/' :: '*' :: (text ++ ['*', '/']) ++ rest
        = '/' :: '*' :: (text ++ '*' :: '/' :: rest) := by simp
    rw [htext, closeBraces, closeBraces_blockComment unclosed, Option.map_map]
    congr 1
    funext tail
    simp
  | _, .single unquoted no_open no_close, n, rest, apart =>
    closeBraces_single unquoted no_open no_close (fun hc ↦ apart (by rw [hc])) (n + 1)

end

/-! ## The scanner is the grammar -/

theorem IsBlock.ne_nil {block : List Char} (h : IsBlock block) : block ≠ [] := by
  cases h with
  | braces inside => exact List.cons_ne_nil _ _

theorem bracedBlock?_append {block : List Char} (h : IsBlock block) (rest : List Char) :
    bracedBlock? (block ++ rest) = some block := by
  cases h with
  | @braces body inside =>
    have hbody := closeBraces_chunks inside 0 rest
    have hlast : closeBraces .code 1 ('}' :: rest) = some ['}'] := by
      rw [closeBraces.eq_def]
      rfl
    have htext : '{' :: (body ++ ['}']) ++ rest = '{' :: (body ++ '}' :: rest) := by simp
    rw [hlast] at hbody
    rw [htext, bracedBlock?, hbody]
    rfl

/-- **A text has a braced block at its front exactly if a prefix of it is one.** -/
theorem bracedBlock?_eq_some_iff {cs block : List Char} :
    bracedBlock? cs = some block ↔ block <+: cs ∧ IsBlock block := by
  constructor
  · intro h
    rw [bracedBlock?.eq_def] at h
    split at h
    · next rest =>
      obtain ⟨found, hfound, rfl⟩ := Option.map_eq_some_iff.mp h
      obtain ⟨hfront, hcloses⟩ := closeBraces_sound hfound
      refine ⟨List.cons_prefix_cons.mpr ⟨rfl, hfront⟩, ?_⟩
      cases hcloses with
      | cons inside outer =>
        cases outer
        exact .braces inside
    · cases h
  · rintro ⟨⟨rest, rfl⟩, hblock⟩
    exact bracedBlock?_append hblock rest

/-- A text that stands at an offset of a source and is a block. -/
def BlockAt (source : String) (start : Int) (block : String) : Prop :=
  0 ≤ start ∧ start < source.length ∧
    block.toList <+: source.toList.drop start.toNat ∧ IsBlock block.toList

theorem bracedAt?_eq_some_iff {source block : String} {start : Int} :
    bracedAt? source start = some block ↔ BlockAt source start block := by
  rw [bracedAt?]
  split
  · next hneg =>
    constructor
    · intro h
      cases h
    · rintro ⟨hpos, -⟩
      omega
  · next hpos =>
    rw [Option.map_eq_some_iff]
    constructor
    · rintro ⟨found, hfound, rfl⟩
      obtain ⟨hfront, hblock⟩ := bracedBlock?_eq_some_iff.mp hfound
      have hlength : start.toNat < source.toList.length := by
        by_contra hlong
        rw [List.drop_eq_nil_of_le (by omega)] at hfront
        exact hblock.ne_nil (List.prefix_nil.mp hfront)
      rw [String.length_toList] at hlength
      rw [BlockAt, String.toList_ofList]
      exact ⟨by omega, by omega, hfront, hblock⟩
    · rintro ⟨-, -, hfront, hblock⟩
      exact ⟨block.toList, bracedBlock?_eq_some_iff.mpr ⟨hfront, hblock⟩, String.ofList_toList⟩

/-- **The braced block at an offset is the one that the grammar has there**: for every text and offset, inside
the text or not, it is found exactly if there is one, there is at most one, and it is found between any two
texts. -/
theorem bracedAt?_accepts_grammar (source : String) (start : Int) :
    (∀ block, bracedAt? source start = some block ↔ BlockAt source start block) ∧
      (bracedAt? source start = none ↔ ∀ block, ¬BlockAt source start block) ∧
      (∀ block block', BlockAt source start block → BlockAt source start block' → block = block') ∧
      ∀ block, bracedAt? source start = some block →
        ∀ before after : String, bracedAt? (before ++ block ++ after) before.length = some block := by
  refine ⟨fun block ↦ bracedAt?_eq_some_iff, ?_, ?_, ?_⟩
  · rw [Option.eq_none_iff_forall_ne_some]
    exact forall_congr' fun block ↦ not_congr bracedAt?_eq_some_iff
  · intro block block' h h'
    have hsame := (bracedAt?_eq_some_iff.mpr h).symm.trans (bracedAt?_eq_some_iff.mpr h')
    exact Option.some.inj hsame
  · intro block h before after
    obtain ⟨-, -, -, hblock⟩ := bracedAt?_eq_some_iff.mp h
    have hsome : 0 < block.length := by
      rw [← String.length_toList]
      exact List.length_pos_iff.mpr hblock.ne_nil
    refine bracedAt?_eq_some_iff.mpr ⟨by omega, ?_, ?_, hblock⟩
    · simp only [String.length_append]
      omega
    · simp [String.length_toList]

/-- A brace in a string literal does not close the block, and the brace behind the block is left. -/
theorem bracedAt?_accepts_grammar_literal :
    let source := "a\x7b'\x7d'\x7d\x7d"
    let block := "\x7b'\x7d'\x7d"
    bracedAt? source 1 = some block ∧ BlockAt source 1 block ∧
      bracedAt? ("/" ++ block ++ "\x7b") 1 = some block := by
  intro source block
  have hblock : bracedAt? source 1 = some block := by decide +kernel
  obtain ⟨hiff, -, -, hbetween⟩ := bracedAt?_accepts_grammar source 1
  exact ⟨hblock, (hiff block).mp hblock, hbetween block hblock "/" "\x7b"⟩

end FeatureAtlas.Declaration
