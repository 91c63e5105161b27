import FeatureAtlas.Comment.Block
import FeatureAtlas.Comment.Header

/-!
# Where the code of a file can start

A search for keywords goes from line starts through comments and blanks, and comments are only left behind
at the end of a line. So it ends where a line begins with a keyword, and it finds something if any line does.
Where it ends is another matter: a comment may be left at any later end of a comment. It is at the first
keyword if all that comes before are blanks and comments that end their lines, because then the nearest end
of each comment leads there.
-/

namespace FeatureAtlas

theorem Text.after?_eq_some_iff {start cs rest : List Char} :
    Text.after? start cs = some rest ↔ cs = start ++ rest := by
  induction start generalizing cs with
  | nil => simp [Text.after?]
  | cons s start ih =>
    cases cs with
    | nil => simp [Text.after?]
    | cons c cs =>
      rw [Text.after?]
      by_cases hc : s = c
      · subst hc
        simp [ih]
      · simp [hc, Ne.symm hc]

namespace Comment

/-- What ends at the start of a line, but for blanks. -/
inductive LineStart : List Char → Prop
  | start : LineStart []
  | line (before : List Char) : LineStart (before ++ ['\n'])
  | blank {before : List Char} {c : Char} (h : LineStart before) (hc : Text.isBlank c = true) :
      LineStart (before ++ [c])

/-- A line begins with one of the keywords, after blanks, and the keyword is at this offset. -/
def BeginsLine (keywords : List String) (cs : List Char) (p : Nat) : Prop :=
  LineStart (cs.take p) ∧ keywordAt keywords (cs.drop p) = true

theorem beginsLine_append {keywords : List String} {before cs : List Char}
    (hbefore : LineStart before) (h : keywordAt keywords cs = true) :
    BeginsLine keywords (before ++ cs) before.length := by
  rw [BeginsLine, List.take_left, List.drop_left]
  exact ⟨hbefore, h⟩

theorem keywordAt_nil (keywords : List String) : keywordAt keywords [] = false := by
  refine List.any_eq_false.mpr fun k _ ↦ ?_
  cases hk : Text.after? k.toList [] with
  | none => simp
  | some rest =>
    have hrest := List.append_eq_nil_iff.mp (Text.after?_eq_some_iff.mp hk).symm
    simp [hrest.2]

theorem LineStart.exists_blanks {before : List Char} (h : LineStart before) :
    ∃ lines blanks, before = lines ++ blanks ∧ (lines = [] ∨ lines.getLast? = some '\n') ∧
      ∀ c ∈ blanks, Text.isBlank c = true := by
  induction h with
  | start => exact ⟨[], [], rfl, .inl rfl, nofun⟩
  | line before => exact ⟨before ++ ['\n'], [], by simp, .inr (by simp), nofun⟩
  | @blank before c _ hc ih =>
    obtain ⟨lines, blanks, rfl, hlines, hblanks⟩ := ih
    refine ⟨lines, blanks ++ [c], by simp, hlines, fun d hd ↦ ?_⟩
    rcases List.mem_append.mp hd with hd | hd
    · exact hblanks d hd
    · obtain rfl := List.mem_singleton.mp hd
      exact hc

/-! ## One comment or blank -/

theorem exists_of_afterLineComment? {offset : Nat} {cs : List Char} {found : Nat × List Char}
    (h : afterLineComment? offset cs = some found) :
    ∃ line, cs = '/' :: '/' :: line ++ '\n' :: found.2 ∧
      found.1 = offset + (line.length + 3) := by
  obtain ⟨body, hbody, hline⟩ := Option.bind_eq_some_iff.mp h
  have hcs : cs = '/' :: '/' :: body := Text.after?_eq_some_iff.mp hbody
  have hsplit := List.takeWhile_append_dropWhile (p := (· != '\n')) (l := body)
  have hdrop : body.drop (body.takeWhile (· != '\n')).length = body.dropWhile (· != '\n') := by
    exact (congrArg (List.drop _) hsplit.symm).trans (List.drop_left' rfl)
  dsimp only at hline
  rw [hdrop] at hline
  cases hrest : body.dropWhile (· != '\n') with
  | nil => simp [hrest] at hline
  | cons c rest =>
    rw [hrest] at hline
    cases hline
    have hc : c = '\n' := by
      have hhead := List.head?_dropWhile_not (· != '\n') body
      rw [hrest] at hhead
      simpa using hhead
    have hbodySplit : body = body.takeWhile (· != '\n') ++ '\n' :: rest := by
      rw [hc] at hrest
      rw [← hrest]
      exact hsplit.symm
    refine ⟨body.takeWhile (· != '\n'), ?_, by dsimp only; omega⟩
    rw [hcs]
    exact congrArg ('/' :: '/' :: ·) hbodySplit

theorem exists_of_mem_lineEndsOfComment {offset : Nat} {cs : List Char} {found : Nat × List Char}
    (h : found ∈ lineEndsOfComment offset cs) :
    ∃ body, cs = body ++ '\n' :: found.2 ∧ found.1 = offset + (body.length + 1) := by
  induction cs generalizing offset with
  | nil => cases h
  | cons c cs ih =>
    have hlater : found ∈ lineEndsOfComment (offset + 1) cs →
        ∃ body, c :: cs = body ++ '\n' :: found.2 ∧ found.1 = offset + (body.length + 1) := by
      intro hmem
      obtain ⟨body, rfl, hoffset⟩ := ih hmem
      exact ⟨c :: body, rfl, by rw [hoffset, List.length_cons]; omega⟩
    rw [lineEndsOfComment] at h
    split at h
    · next rest hrest =>
      rcases List.mem_cons.mp h with rfl | hmem
      · have hcs := Text.after?_eq_some_iff.mp hrest
        exact ⟨['*', '/'], hcs, rfl⟩
      · exact hlater hmem
    · exact hlater h

/-- A comment or a blank leads from the start of a line to the start of a line. -/
theorem exists_of_mem_skips {before cs : List Char} {found : Nat × List Char}
    (hbefore : LineStart before) (h : found ∈ skips before.length cs) :
    ∃ mid, cs = mid ++ found.2 ∧ found.1 = (before ++ mid).length ∧ LineStart (before ++ mid) := by
  rw [skips.eq_def, List.mem_append, List.mem_append] at h
  obtain (h | h) | h := h
  · obtain ⟨line, hcs, hoffset⟩ := exists_of_afterLineComment? (Option.mem_toList.mp h)
    refine ⟨'/' :: '/' :: line ++ ['\n'], by simp [hcs], by simp [hoffset], ?_⟩
    rw [← List.append_assoc]
    exact .line _
  · split at h
    · next body hbody =>
      obtain ⟨inner, rfl, hoffset⟩ := exists_of_mem_lineEndsOfComment h
      have hcs := Text.after?_eq_some_iff.mp hbody
      refine ⟨'/' :: '*' :: inner ++ ['\n'], by simp [hcs], ?_, ?_⟩
      · rw [hoffset]
        simp only [List.length_append, List.length_cons, List.length_nil]
        omega
      · rw [← List.append_assoc]
        exact .line _
    · cases h
  · cases cs with
    | nil => cases h
    | cons c rest =>
      dsimp only at h
      split at h
      · next hc =>
        obtain rfl := List.mem_singleton.mp h
        exact ⟨[c], rfl, by simp, .blank hbefore hc⟩
      · cases h

/-! ## The search -/

theorem keywordFrom?_sound {keywords : List String} {fuel p : Nat} {before cs : List Char}
    (hbefore : LineStart before) (h : keywordFrom? keywords fuel before.length cs = some p) :
    BeginsLine keywords (before ++ cs) p := by
  induction fuel generalizing before cs with
  | zero => cases h
  | succ fuel ih =>
    rw [keywordFrom?] at h
    split at h
    · next found hfound =>
      cases h
      obtain ⟨⟨offset, rest⟩, hmem, hrest⟩ := List.exists_of_findSome?_eq_some hfound
      obtain ⟨mid, hcs, hoffset, hmid⟩ := exists_of_mem_skips hbefore hmem
      dsimp only at hcs hoffset hrest
      rw [hoffset] at hrest
      rw [hcs, ← List.append_assoc]
      exact ih hmid hrest
    · split at h
      · next hkeyword =>
        cases h
        exact beginsLine_append hbefore hkeyword
      · cases h

theorem keywordBelow?_sound {keywords : List String} {lineStart : Bool} {p : Nat}
    (before : List Char) {cs : List Char} (hbefore : lineStart = true → LineStart before)
    (h : keywordBelow? keywords before.length lineStart cs = some p) :
    BeginsLine keywords (before ++ cs) p := by
  induction cs generalizing before lineStart with
  | nil => cases h
  | cons c cs ih =>
    rw [keywordBelow?] at h
    split at h
    · next found hfound =>
      cases h
      split at hfound
      · next hline => exact keywordFrom?_sound (hbefore hline) hfound
      · cases hfound
    · rw [List.append_cons]
      refine ih _ (fun hc ↦ ?_) (by rw [List.length_append]; exact h)
      obtain rfl := beq_iff_eq.mp hc
      exact .line before

theorem keywordFrom?_isSome {keywords : List String} {blanks behind : List Char}
    (hblanks : ∀ c ∈ blanks, Text.isBlank c = true) (h : keywordAt keywords behind = true)
    {fuel : Nat} (hfuel : blanks.length < fuel) (offset : Nat) :
    (keywordFrom? keywords fuel offset (blanks ++ behind)).isSome = true := by
  induction blanks generalizing fuel offset with
  | nil =>
    obtain ⟨fuel, rfl⟩ := Nat.exists_eq_succ_of_ne_zero (Nat.ne_zero_of_lt hfuel)
    rw [keywordFrom?, List.nil_append, if_pos h]
    split <;> rfl
  | cons c blanks ih =>
    obtain ⟨fuel, rfl⟩ := Nat.exists_eq_succ_of_ne_zero (Nat.ne_zero_of_lt hfuel)
    have hrest := ih (fun d hd ↦ hblanks d (List.mem_cons_of_mem c hd))
      (Nat.lt_of_succ_lt_succ hfuel) (offset + 1)
    have hmem : (offset + 1, blanks ++ behind) ∈ skips offset (c :: blanks ++ behind) := by
      refine List.mem_append_right _ ?_
      rw [List.cons_append]
      dsimp only
      rw [if_pos (hblanks c List.mem_cons_self)]
      exact List.mem_singleton_self _
    rw [keywordFrom?]
    split
    · rfl
    · next hnone =>
      have hnext := List.findSome?_eq_none_iff.mp hnone _ hmem
      dsimp only at hnext
      rw [hnext] at hrest
      cases hrest

theorem keywordBelow?_isSome {keywords : List String} {lines blanks behind : List Char}
    (hlines : lines = [] ∨ lines.getLast? = some '\n') (hblanks : ∀ c ∈ blanks, Text.isBlank c = true)
    (h : keywordAt keywords behind = true) {lineStart : Bool} (hstart : lines = [] → lineStart = true)
    (offset : Nat) :
    (keywordBelow? keywords offset lineStart (lines ++ (blanks ++ behind))).isSome = true := by
  induction lines generalizing lineStart offset with
  | nil =>
    have hfrom : ∀ fuel, blanks.length < fuel →
        (keywordFrom? keywords fuel offset (blanks ++ behind)).isSome = true :=
      fun _ hfuel ↦ keywordFrom?_isSome hblanks h hfuel offset
    cases hcs : blanks ++ behind with
    | nil =>
      rw [(List.append_eq_nil_iff.mp hcs).2, keywordAt_nil] at h
      cases h
    | cons c cs =>
      have hlength : blanks.length ≤ cs.length + 1 := by
        rw [← List.length_cons, ← hcs, List.length_append]
        omega
      obtain ⟨found, hfound⟩ := Option.isSome_iff_exists.mp (hfrom (cs.length + 2) (by omega))
      rw [List.nil_append, keywordBelow?, hstart rfl, if_pos rfl, ← hcs, hfound]
      rfl
  | cons c lines ih =>
    have hrest : lines = [] ∨ lines.getLast? = some '\n' := by
      cases lines with
      | nil => exact .inl rfl
      | cons d lines => exact .inr (by simpa using hlines)
    rw [List.cons_append, keywordBelow?]
    split
    · rfl
    · refine ih hrest (fun hnil ↦ ?_) (offset + 1)
      subst hnil
      simpa using hlines

theorem keywordBelow?_eq_none_iff {keywords : List String} {cs : List Char} :
    keywordBelow? keywords 0 true cs = none ↔ ∀ p, ¬ BeginsLine keywords cs p := by
  constructor
  · intro hnone p ⟨hfresh, hkeyword⟩
    obtain ⟨lines, blanks, htake, hlines, hblanks⟩ := hfresh.exists_blanks
    have hsome := keywordBelow?_isSome hlines hblanks hkeyword (fun _ ↦ rfl) 0
    rw [← List.append_assoc, ← htake, List.take_append_drop, hnone] at hsome
    cases hsome
  · intro h
    cases hfound : keywordBelow? keywords 0 true cs with
    | none => rfl
    | some p => exact absurd (keywordBelow?_sound [] (fun _ ↦ .start) hfound) (h p)

/-- **Code starts where a line begins with a keyword that is as telling as any that begins a line.** -/
theorem exists_codeStart {source : String}
    (h : ∃ keywords ∈ codeKeywords, ∃ p, BeginsLine keywords source.toList p) :
    ∃ more keywords less, codeKeywords = more ++ keywords :: less ∧
      keywordBelow? keywords 0 true source.toList = some (codeStart source) ∧
      ∀ other ∈ more, ∀ p, ¬ BeginsLine other source.toList p := by
  obtain ⟨keywords, hmem, p, hp⟩ := h
  have hsome : (codeKeywords.findSome? fun ks ↦ keywordBelow? ks 0 true source.toList).isSome := by
    refine List.findSome?_isSome_iff.mpr ⟨keywords, hmem, ?_⟩
    rw [Option.isSome_iff_ne_none]
    exact fun hnone ↦ keywordBelow?_eq_none_iff.mp hnone p hp
  obtain ⟨found, hfound⟩ := Option.isSome_iff_exists.mp hsome
  obtain ⟨more, ks, less, hsplit, hks, hmore⟩ := List.findSome?_eq_some_iff.mp hfound
  refine ⟨more, ks, less, hsplit, ?_, fun other hother ↦ ?_⟩
  · rw [codeStart, hfound, Option.getD_some, hks]
  · exact keywordBelow?_eq_none_iff.mp (hmore other hother)

/-! ## Comments that end their lines -/

/-- Blanks, and comments each of which ends its line. -/
inductive Trivia : List Char → Prop
  | nil : Trivia []
  | blank {c : Char} {rest : List Char} (hc : Text.isBlank c = true) (h : Trivia rest) :
      Trivia (c :: rest)
  | line {body rest : List Char} (hbody : '\n' ∉ body) (h : Trivia rest) :
      Trivia ('/' :: '/' :: body ++ '\n' :: rest)
  | block {body rest : List Char} (hbody : ¬ closing <:+: body ++ ['*']) (h : Trivia rest) :
      Trivia ('/' :: '*' :: body ++ '*' :: '/' :: '\n' :: rest)

/-- The nearest end of a comment that ends its line is the end of the comment. -/
theorem exists_lineEndsOfComment {body : List Char} (hbody : ¬ closing <:+: body ++ ['*'])
    (offset : Nat) (rest : List Char) :
    ∃ later, lineEndsOfComment offset (body ++ '*' :: '/' :: '\n' :: rest)
      = (offset + (body.length + 3), rest) :: later := by
  induction body generalizing offset with
  | nil => exact ⟨_, rfl⟩
  | cons c body ih =>
    have hnone : Text.after? ['*', '/', '\n'] (c :: (body ++ '*' :: '/' :: '\n' :: rest)) = none := by
      rw [Option.eq_none_iff_forall_ne_some]
      intro behind hbehind
      have hcs := Text.after?_eq_some_iff.mp hbehind
      cases body with
      | nil => simp at hcs
      | cons d body =>
        simp only [List.cons_append, List.cons.injEq, List.nil_append] at hcs
        obtain ⟨rfl, rfl, -⟩ := hcs
        exact hbody ⟨[], body ++ ['*'], rfl⟩
    obtain ⟨later, hlater⟩ := ih (fun h ↦ hbody (h.trans (List.suffix_cons c _).isInfix)) (offset + 1)
    refine ⟨later, ?_⟩
    rw [List.cons_append, lineEndsOfComment, hnone]
    dsimp only
    rw [hlater, List.length_cons]
    congr 2
    omega

theorem exists_of_keywordAt {keywords : List String} (hkeywords : keywords ∈ codeKeywords)
    {cs : List Char} (h : keywordAt keywords cs = true) :
    ∃ c rest, cs = c :: rest ∧ c ≠ '/' ∧ Text.isBlank c = false := by
  have hheads : ∀ ks ∈ codeKeywords, ∀ k ∈ ks,
      (k.toList.head?.any fun c ↦ c != '/' && !Text.isBlank c) = true := by decide
  obtain ⟨k, hk, hmatch⟩ := List.any_eq_true.mp h
  obtain ⟨c, hc, hhead⟩ := (Option.any_eq_true _ _).mp (hheads keywords hkeywords k hk)
  obtain ⟨hslash, hblank⟩ := Bool.and_eq_true_iff.mp hhead
  rw [bne_iff_ne] at hslash
  rw [Bool.not_eq_true'] at hblank
  obtain ⟨tail, htail⟩ := List.head?_eq_some_iff.mp hc
  cases hafter : Text.after? k.toList cs with
  | none => simp [hafter] at hmatch
  | some rest =>
    have hcs := Text.after?_eq_some_iff.mp hafter
    exact ⟨c, tail ++ rest, by rw [hcs, htail, List.cons_append], hslash, hblank⟩

theorem skips_of_keywordAt {keywords : List String} (hkeywords : keywords ∈ codeKeywords)
    {cs : List Char} (h : keywordAt keywords cs = true) (offset : Nat) : skips offset cs = [] := by
  obtain ⟨c, rest, rfl, hslash, hblank⟩ := exists_of_keywordAt hkeywords h
  have hnone : ∀ start, Text.after? ('/' :: start) (c :: rest) = none := by
    intro start
    rw [Text.after?, if_neg (by simpa using Ne.symm hslash)]
  simp [skips.eq_def, afterLineComment?, hnone, hblank]

theorem skips_of_blank {c : Char} (hc : Text.isBlank c = true) (offset : Nat) (cs : List Char) :
    skips offset (c :: cs) = [(offset + 1, cs)] := by
  have hslash : '/' ≠ c := by
    rintro rfl
    exact absurd hc (by decide)
  have hnone : ∀ start, Text.after? ('/' :: start) (c :: cs) = none := by
    intro start
    rw [Text.after?, if_neg (by simpa using hslash)]
  simp [skips.eq_def, afterLineComment?, hnone, hc]

theorem afterLineComment?_line {body : List Char} (hbody : '\n' ∉ body) (offset : Nat)
    (rest : List Char) :
    afterLineComment? offset ('/' :: '/' :: (body ++ '\n' :: rest))
      = some (offset + 2 + body.length + 1, rest) := by
  have hall : ∀ c ∈ body, (c != '\n') = true := by
    intro c hc
    rw [bne_iff_ne]
    rintro rfl
    exact hbody hc
  have htake : (body ++ '\n' :: rest).takeWhile (· != '\n') = body := by
    rw [List.takeWhile_append_of_pos hall, List.takeWhile_cons_of_neg (by simp), List.append_nil]
  rw [afterLineComment?]
  simp only [Text.after?, beq_self_eq_true, if_true, Option.bind_eq_bind, Option.bind_some, htake,
    List.drop_left]

theorem exists_skips_of_line {body : List Char} (hbody : '\n' ∉ body) (offset : Nat)
    (rest : List Char) :
    ∃ later, skips offset ('/' :: '/' :: (body ++ '\n' :: rest))
      = (offset + 2 + body.length + 1, rest) :: later := by
  rw [skips.eq_def, afterLineComment?_line hbody]
  exact ⟨_, rfl⟩

/-- A block comment that ends its line is left there first. -/
theorem exists_skips_of_block {body : List Char} (hbody : ¬ closing <:+: body ++ ['*'])
    (offset : Nat) (rest : List Char) :
    ∃ later, skips offset ('/' :: '*' :: (body ++ '*' :: '/' :: '\n' :: rest))
      = (offset + 2 + (body.length + 3), rest) :: later := by
  obtain ⟨later, hlater⟩ := exists_lineEndsOfComment hbody (offset + 2) rest
  refine ⟨later, ?_⟩
  have hline : afterLineComment? offset ('/' :: '*' :: (body ++ '*' :: '/' :: '\n' :: rest)) = none :=
    rfl
  have hblock : Text.after? ['/', '*'] ('/' :: '*' :: (body ++ '*' :: '/' :: '\n' :: rest))
      = some (body ++ '*' :: '/' :: '\n' :: rest) := rfl
  have hblank : Text.isBlank '/' = false := by decide
  simp only [skips.eq_def, hline, hblock, hlater, hblank, Option.toList_none, List.nil_append,
    Bool.false_eq_true, if_false, List.append_nil]

theorem keywordFrom?_of_skips {keywords : List String} {fuel offset o p : Nat} {cs rest : List Char}
    {later : List (Nat × List Char)} (h : skips offset cs = (o, rest) :: later)
    (hrest : keywordFrom? keywords fuel o rest = some p) :
    keywordFrom? keywords (fuel + 1) offset cs = some p := by
  rw [keywordFrom?, h, List.findSome?_cons]
  dsimp only
  rw [hrest]

/-- From blanks and comments that end their lines the search comes to the keyword behind them. -/
theorem keywordFrom?_of_trivia {keywords : List String} (hkeywords : keywords ∈ codeKeywords)
    {before behind : List Char} (hbefore : Trivia before) (h : keywordAt keywords behind = true)
    {fuel : Nat} (hfuel : before.length < fuel) (offset : Nat) :
    keywordFrom? keywords fuel offset (before ++ behind) = some (offset + before.length) := by
  induction hbefore generalizing fuel offset with
  | nil =>
    obtain ⟨fuel, rfl⟩ := Nat.exists_eq_succ_of_ne_zero (Nat.ne_zero_of_lt hfuel)
    rw [List.nil_append, keywordFrom?, skips_of_keywordAt hkeywords h]
    simp [h]
  | @blank c rest hc _ ih =>
    obtain ⟨fuel, rfl⟩ := Nat.exists_eq_succ_of_ne_zero (Nat.ne_zero_of_lt hfuel)
    have hskips := skips_of_blank hc offset (rest ++ behind)
    rw [List.length_cons] at hfuel ⊢
    refine (keywordFrom?_of_skips hskips (ih (Nat.lt_of_succ_lt_succ hfuel) (offset + 1))).trans ?_
    congr 1
    omega
  | @line body rest hbody _ ih =>
    obtain ⟨fuel, rfl⟩ := Nat.exists_eq_succ_of_ne_zero (Nat.ne_zero_of_lt hfuel)
    have hcs : '/' :: '/' :: body ++ '\n' :: rest ++ behind
        = '/' :: '/' :: (body ++ '\n' :: (rest ++ behind)) := by simp
    obtain ⟨later, hlater⟩ := exists_skips_of_line hbody offset (rest ++ behind)
    simp only [List.length_append, List.length_cons] at hfuel ⊢
    rw [hcs]
    refine (keywordFrom?_of_skips hlater (ih (by omega) _)).trans ?_
    congr 1
    omega
  | @block body rest hbody _ ih =>
    obtain ⟨fuel, rfl⟩ := Nat.exists_eq_succ_of_ne_zero (Nat.ne_zero_of_lt hfuel)
    have hcs : '/' :: '*' :: body ++ '*' :: '/' :: '\n' :: rest ++ behind
        = '/' :: '*' :: (body ++ '*' :: '/' :: '\n' :: (rest ++ behind)) := by simp
    obtain ⟨later, hlater⟩ := exists_skips_of_block hbody offset (rest ++ behind)
    simp only [List.length_append, List.length_cons] at hfuel ⊢
    rw [hcs]
    refine (keywordFrom?_of_skips hlater (ih (by omega) _)).trans ?_
    congr 1
    omega

/-! ## Lines without comment marks -/

/-- Lines none of which begins with the opening mark of a comment, after blanks. -/
inductive Plain : List Char → Prop
  | nil : Plain []
  | line {l rest : List Char} (hl : '\n' ∉ l)
      (hmark : ['/', '*'].isPrefixOf (Text.trimStart l) = false) (h : Plain rest) :
      Plain (l ++ '\n' :: rest)

/-- What can be left at the start of a plain line: a blank, the whole line, or nothing. -/
theorem skips_of_plain {c : Char} {l : List Char} (hc : Text.isBlank c = false)
    (hl : '\n' ∉ c :: l) (hmark : ['/', '*'].isPrefixOf (c :: l) = false) (offset : Nat)
    (rest : List Char) :
    skips offset (c :: (l ++ '\n' :: rest)) = [] ∨
      skips offset (c :: (l ++ '\n' :: rest)) = [(offset + (c :: l).length + 1, rest)] := by
  by_cases hline : ∃ body, c :: l = '/' :: '/' :: body
  · obtain ⟨body, hbody⟩ := hline
    cases hbody
    have hnewline : '\n' ∉ body := fun h ↦ hl (List.mem_cons_of_mem _ (List.mem_cons_of_mem _ h))
    have hafter := afterLineComment?_line hnewline offset rest
    have hblock : Text.after? ['/', '*'] ('/' :: '/' :: (body ++ '\n' :: rest)) = none := rfl
    refine .inr ?_
    rw [List.cons_append, skips.eq_def, hafter, hblock]
    simp only [hc, Option.toList_some, List.append_nil, Bool.false_eq_true, if_false,
      List.length_cons, List.cons.injEq, Prod.mk.injEq, and_true]
    omega
  · refine .inl ?_
    have hnone : ∀ d, d ≠ '\n' → (∀ body, c :: l ≠ '/' :: d :: body) →
        Text.after? ['/', d] (c :: (l ++ '\n' :: rest)) = none := by
      intro d hd hstart
      rw [Option.eq_none_iff_forall_ne_some]
      intro behind hbehind
      have hcs := Text.after?_eq_some_iff.mp hbehind
      cases l with
      | nil =>
        simp only [List.nil_append, List.cons_append, List.cons.injEq] at hcs
        exact hd hcs.2.1.symm
      | cons e l =>
        simp only [List.nil_append, List.cons_append, List.cons.injEq] at hcs
        exact hstart l (by rw [hcs.1, hcs.2.1])
    have hcomment := hnone '/' (by decide) fun body hbody ↦ hline ⟨body, hbody⟩
    have hblock := hnone '*' (by decide) (by
      rintro body hbody
      rw [hbody] at hmark
      simp [List.isPrefixOf] at hmark)
    simp [skips.eq_def, afterLineComment?, hcomment, hblock, hc]

theorem keywordFrom?_none_or {keywords : List String} {fuel offset p : Nat} {cs : List Char}
    (h : keywordAt keywords cs = false)
    (hskips : ∀ next ∈ skips offset cs, keywordFrom? keywords fuel next.1 next.2 = none ∨
      keywordFrom? keywords fuel next.1 next.2 = some p) :
    keywordFrom? keywords (fuel + 1) offset cs = none ∨
      keywordFrom? keywords (fuel + 1) offset cs = some p := by
  rw [keywordFrom?, h]
  split
  · next found hfound =>
    obtain ⟨⟨next, rest⟩, hnext, hsome⟩ := List.exists_of_findSome?_eq_some hfound
    have hstep := hskips _ hnext
    dsimp only at hsome hstep
    rw [hsome] at hstep
    exact hstep
  · exact .inl rfl

section

variable {keywords : List String} {before : List Char} {p : Nat}

/-- From the start of a plain line the search gets nowhere, or comes to where it comes from the next line. -/
theorem keywordFrom?_of_line {l behind : List Char} (hl : '\n' ∉ l)
    (hmark : ['/', '*'].isPrefixOf (Text.trimStart l) = false) (hbefore : LineStart before)
    (hnone : ∀ q ≤ (before ++ l).length, ¬ BeginsLine keywords (before ++ l ++ '\n' :: behind) q)
    {n : Nat} (hbehind : ∀ fuel, n < fuel →
      keywordFrom? keywords fuel (before ++ l ++ ['\n']).length behind = none ∨
        keywordFrom? keywords fuel (before ++ l ++ ['\n']).length behind = some p)
    {fuel : Nat} (hfuel : l.length + 1 + n < fuel) :
    keywordFrom? keywords fuel before.length (l ++ '\n' :: behind) = none ∨
      keywordFrom? keywords fuel before.length (l ++ '\n' :: behind) = some p := by
  induction l generalizing before fuel with
  | nil =>
    obtain ⟨fuel, rfl⟩ := Nat.exists_eq_succ_of_ne_zero (Nat.ne_zero_of_lt hfuel)
    rw [List.length_nil] at hfuel
    rw [List.append_nil, List.length_append] at hbehind
    rw [List.append_nil] at hnone
    have hkeyword : keywordAt keywords ([] ++ '\n' :: behind) = false :=
      Bool.eq_false_iff.mpr fun h ↦ hnone before.length (Nat.le_refl _) (beginsLine_append hbefore h)
    refine keywordFrom?_none_or hkeyword fun next hnext ↦ ?_
    rw [List.nil_append, skips_of_blank (by decide)] at hnext
    obtain rfl := List.mem_singleton.mp hnext
    exact hbehind fuel (by omega)
  | cons c l ih =>
    obtain ⟨fuel, rfl⟩ := Nat.exists_eq_succ_of_ne_zero (Nat.ne_zero_of_lt hfuel)
    rw [List.length_cons] at hfuel
    have hkeyword : keywordAt keywords (c :: l ++ '\n' :: behind) = false := by
      refine Bool.eq_false_iff.mpr fun h ↦ hnone before.length ?_ ?_
      · rw [List.length_append]
        omega
      · rw [List.append_assoc]
        exact beginsLine_append hbefore h
    refine keywordFrom?_none_or hkeyword fun next hnext ↦ ?_
    rw [List.cons_append] at hnext
    cases hc : Text.isBlank c with
    | true =>
      rw [skips_of_blank hc] at hnext
      obtain rfl := List.mem_singleton.mp hnext
      have htrim : Text.trimStart (c :: l) = Text.trimStart l := by
        rw [Text.trimStart, List.dropWhile_cons_of_pos hc, Text.trimStart]
      rw [htrim] at hmark
      rw [List.append_cons before c l] at hnone hbehind
      have hrest := ih (fun h ↦ hl (List.mem_cons_of_mem c h)) hmark (.blank hbefore hc) hnone hbehind
        (show l.length + 1 + n < fuel by omega)
      rwa [List.length_append] at hrest
    | false =>
      have htrim : Text.trimStart (c :: l) = c :: l := by
        rw [Text.trimStart, List.dropWhile_cons_of_neg (by simp [hc])]
      rw [htrim] at hmark
      obtain hnil | hline := skips_of_plain hc hl hmark before.length behind
      · rw [hnil] at hnext
        cases hnext
      · rw [hline] at hnext
        obtain rfl := List.mem_singleton.mp hnext
        have hlength : (before ++ c :: l ++ ['\n']).length = before.length + (c :: l).length + 1 := by
          simp only [List.length_append, List.length_singleton]
        rw [← hlength]
        exact hbehind fuel (by omega)

/-- From the start of plain lines the search gets nowhere, or comes to where it comes from behind them. -/
theorem keywordFrom?_of_plain {plain tail : List Char} (hplain : Plain plain)
    (hbefore : LineStart before)
    (hnone : ∀ q < (before ++ plain).length, ¬ BeginsLine keywords (before ++ plain ++ tail) q)
    {n : Nat} (htail : ∀ fuel, n < fuel →
      keywordFrom? keywords fuel (before ++ plain).length tail = some p)
    {fuel : Nat} (hfuel : plain.length + n < fuel) :
    keywordFrom? keywords fuel before.length (plain ++ tail) = none ∨
      keywordFrom? keywords fuel before.length (plain ++ tail) = some p := by
  induction hplain generalizing before fuel with
  | nil =>
    rw [List.append_nil] at htail
    exact .inr (htail fuel (by simpa using hfuel))
  | @line l rest hl hmark _ ih =>
    have hassoc : before ++ (l ++ '\n' :: rest) = before ++ l ++ ['\n'] ++ rest := by simp
    have htext : before ++ l ++ '\n' :: (rest ++ tail) = before ++ l ++ ['\n'] ++ rest ++ tail := by
      simp
    rw [hassoc] at hnone htail
    rw [List.length_append, List.length_cons] at hfuel
    rw [List.append_assoc, List.cons_append]
    refine keywordFrom?_of_line hl hmark hbefore (fun q hq ↦ ?_)
      (fun fuel (hfuel : rest.length + n < fuel) ↦ ih (.line _) hnone htail hfuel) (by omega)
    rw [htext]
    refine hnone q ?_
    rw [List.length_append, List.length_append]
    exact Nat.lt_of_lt_of_le (Nat.lt_succ_of_le hq) (Nat.le_add_right _ _)

theorem keywordBelow?_of_not_newline {l : List Char} (hl : '\n' ∉ l) (offset : Nat)
    (behind : List Char) :
    keywordBelow? keywords offset false (l ++ '\n' :: behind)
      = keywordBelow? keywords (offset + l.length + 1) true behind := by
  induction l generalizing offset with
  | nil => rfl
  | cons c l ih =>
    have hc : (c == '\n') = false := by
      rw [beq_eq_false_iff_ne]
      rintro rfl
      exact hl List.mem_cons_self
    rw [List.cons_append, keywordBelow?, hc]
    simp only [Bool.false_eq_true, if_false]
    rw [ih (fun h ↦ hl (List.mem_cons_of_mem c h)), List.length_cons]
    congr 1
    omega

/-- Below the start of a line there is what is found from there, or else what is below the next line. -/
theorem keywordBelow?_line {l : List Char} (hl : '\n' ∉ l) (offset : Nat) (behind : List Char) :
    keywordBelow? keywords offset true (l ++ '\n' :: behind) =
      match keywordFrom? keywords ((l ++ '\n' :: behind).length + 1) offset (l ++ '\n' :: behind) with
      | some found => some found
      | none => keywordBelow? keywords (offset + l.length + 1) true behind := by
  cases l with
  | nil => rfl
  | cons c l =>
    have hc : (c == '\n') = false := by
      rw [beq_eq_false_iff_ne]
      rintro rfl
      exact hl List.mem_cons_self
    have hrest : keywordBelow? keywords (offset + 1) (c == '\n') (l ++ '\n' :: behind)
        = keywordBelow? keywords (offset + (c :: l).length + 1) true behind := by
      rw [hc, keywordBelow?_of_not_newline fun h ↦ hl (List.mem_cons_of_mem c h), List.length_cons]
      congr 1
      omega
    rw [← hrest]
    rfl

theorem keywordBelow?_of_plain (before : List Char) {plain : List Char} (hplain : Plain plain) {tail : List Char}
    (hbefore : LineStart before)
    (hnone : ∀ q < (before ++ plain).length, ¬ BeginsLine keywords (before ++ plain ++ tail) q)
    {n : Nat} (hn : n ≤ tail.length) (htail : ∀ fuel, n < fuel →
      keywordFrom? keywords fuel (before ++ plain).length tail = some p)
    (hbelow : keywordBelow? keywords (before ++ plain).length true tail = some p) :
    keywordBelow? keywords before.length true (plain ++ tail) = some p := by
  induction hplain generalizing before with
  | nil => simpa using hbelow
  | @line l rest hl hmark hrest ih =>
    have hassoc : before ++ (l ++ '\n' :: rest) = before ++ l ++ ['\n'] ++ rest := by simp
    have hplain : Plain (l ++ '\n' :: rest) := .line hl hmark hrest
    have htext : l ++ '\n' :: rest ++ tail = l ++ '\n' :: (rest ++ tail) := by simp
    have hfuel : (l ++ '\n' :: rest).length + n < (l ++ '\n' :: rest ++ tail).length + 1 := by
      simp only [List.length_append]
      omega
    have hfrom := keywordFrom?_of_plain hplain hbefore hnone htail hfuel
    rw [hassoc] at hnone htail hbelow
    have hnext := ih _ (.line (before ++ l)) hnone htail hbelow
    simp only [List.length_append, List.length_singleton] at hnext
    rw [htext] at hfrom ⊢
    rw [keywordBelow?_line hl]
    obtain h | h := hfrom
    · rw [h]
      exact hnext
    · rw [h]

end

theorem keywordBelow?_of_trivia {keywords : List String} (hkeywords : keywords ∈ codeKeywords)
    {before behind : List Char} (hbefore : Trivia before) (h : keywordAt keywords behind = true)
    (offset : Nat) :
    keywordBelow? keywords offset true (before ++ behind) = some (offset + before.length) := by
  have hfrom := fun fuel (hfuel : before.length < fuel) ↦
    keywordFrom?_of_trivia hkeywords hbefore h hfuel offset
  cases hcs : before ++ behind with
  | nil =>
    rw [(List.append_eq_nil_iff.mp hcs).2, keywordAt_nil] at h
    cases h
  | cons c cs =>
    have hlength : before.length ≤ cs.length + 1 := by
      rw [← List.length_cons, ← hcs, List.length_append]
      omega
    rw [keywordBelow?, if_pos rfl, ← hcs, hfrom _ (by omega)]

/-- What cannot mislead the search for keywords: lines none of which begins with the opening mark of a
comment or with one of the keywords, and behind them blanks and comments that end their lines. -/
def Clear (keywords : List String) (source : List Char) (p : Nat) : Prop :=
  ∃ plain trivia, source.take p = plain ++ trivia ∧ Plain plain ∧ Trivia trivia ∧
    ∀ q < plain.length, ¬ BeginsLine keywords source q

theorem BeginsLine.length_take {keywords : List String} {cs : List Char} {p : Nat}
    (h : BeginsLine keywords cs p) : (cs.take p).length = p := by
  rw [List.length_take, Nat.min_eq_left]
  refine Nat.le_of_lt (Nat.lt_of_not_le fun hle ↦ ?_)
  have hkeyword := h.2
  rw [List.drop_eq_nil_of_le hle, keywordAt_nil] at hkeyword
  cases hkeyword

theorem keywordBelow?_of_clear {keywords : List String} (hkeywords : keywords ∈ codeKeywords)
    {source : List Char} {p : Nat} (hclear : Clear keywords source p)
    (hp : BeginsLine keywords source p) : keywordBelow? keywords 0 true source = some p := by
  obtain ⟨plain, trivia, htake, hplain, htrivia, hnone⟩ := hclear
  have hlength := hp.length_take
  rw [htake, List.length_append] at hlength
  have hsource : source = plain ++ (trivia ++ source.drop p) := by
    rw [← List.append_assoc, ← htake, List.take_append_drop]
  rw [hsource] at hnone ⊢
  have htail : ∀ fuel, trivia.length < fuel →
      keywordFrom? keywords fuel plain.length (trivia ++ source.drop p)
        = some (plain.length + trivia.length) :=
    fun _ hfuel ↦ keywordFrom?_of_trivia hkeywords htrivia hp.2 hfuel plain.length
  have hbelow := keywordBelow?_of_trivia hkeywords htrivia hp.2 plain.length
  rw [hlength] at htail hbelow
  have hn : trivia.length ≤ (trivia ++ source.drop p).length := by
    rw [List.length_append]
    exact Nat.le_add_right _ _
  exact keywordBelow?_of_plain [] hplain .start hnone hn htail hbelow

/-- **Code starts at the first keyword behind what cannot mislead the search**, if no line begins with a
more telling one. -/
theorem codeStart_of_clear {source : String} {more less : List (List String)}
    {keywords : List String} {p : Nat} (hsplit : codeKeywords = more ++ keywords :: less)
    (hmore : ∀ other ∈ more, ∀ q, ¬ BeginsLine other source.toList q)
    (hclear : Clear keywords source.toList p) (hp : BeginsLine keywords source.toList p) :
    codeStart source = p := by
  have hmem : keywords ∈ codeKeywords := by
    rw [hsplit]
    exact List.mem_append_right more List.mem_cons_self
  have hfound : codeKeywords.findSome? (fun ks ↦ keywordBelow? ks 0 true source.toList) = some p := by
    refine List.findSome?_eq_some_iff.mpr
      ⟨more, keywords, less, hsplit, keywordBelow?_of_clear hmem hclear hp, ?_⟩
    exact fun other hother ↦ keywordBelow?_eq_none_iff.mpr (hmore other hother)
  rw [codeStart, hfound, Option.getD_some]

end Comment

end FeatureAtlas

/-!
## The first line of code

Comments are told from code by reading a source from its start: quoted texts hold no comments, and comments
hold no quoted texts. The first line of code is the first line outside comments that begins, after blanks,
with one of the keywords.
-/

namespace FeatureAtlas.Comment

/-- What a character of a source belongs to. -/
inductive Region where
  | code
  /-- A quoted text; `escaped` after a backslash. -/
  | quoted (mark : Char) (escaped : Bool)
  | lineComment
  /-- The star of an opening mark. -/
  | opening
  | comment
  /-- The slash of a closing mark. -/
  | closing
deriving DecidableEq, Repr

namespace Region

/-- The marks of quoted texts. -/
def quotes : List Char := ['"', '\'', '\x60']

/-- Whether a character belongs to a comment. -/
def isComment : Region → Bool
  | lineComment | opening | comment | closing => true
  | code | quoted _ _ => false

/-- The region of the character after `c`, which stands in front of `rest`. -/
def after (c : Char) (rest : List Char) : Region → Region
  | code =>
    if c == '/' && rest.head? == some '/' then lineComment
    else if c == '/' && rest.head? == some '*' then opening
    else if quotes.contains c then quoted c false
    else code
  | quoted mark true => quoted mark false
  | quoted mark false =>
    if c == '\\' then quoted mark true
    else if c == mark || (c == '\n' && mark != '\x60') then code
    else quoted mark false
  | lineComment => if c == '\n' then code else lineComment
  | opening => comment
  | comment => if c == '*' && rest.head? == some '/' then closing else comment
  | closing => code

end Region

/-- The offset of the first line outside comments that begins with a keyword, after blanks; `lineStart` says
whether only blanks stand before on the line. -/
def codeLineBelow? (offset : Nat) (region : Region) (lineStart : Bool) : List Char → Option Nat
  | [] => none
  | c :: cs =>
    if lineStart && !region.isComment && keywordAt codeKeywords.flatten (c :: cs) then some offset
    else
      codeLineBelow? (offset + 1) (region.after c cs) (c == '\n' || lineStart && Text.isBlank c) cs

/-- The offset of the first line of code of a source. -/
def firstCodeLine? (source : String) : Option Nat := codeLineBelow? 0 .code true source.toList

/-- A comment may open and close on the line of code, but not in front of the keyword. -/
example : firstCodeLine? "/* a\nexport b */ const c\n  type D = 1" = some 27 := by decide +kernel

theorem codeLineBelow?_sound (before : List Char) {region : Region} {lineStart : Bool} {p : Nat}
    {cs : List Char} (hbefore : lineStart = true → LineStart before)
    (h : codeLineBelow? before.length region lineStart cs = some p) :
    BeginsLine codeKeywords.flatten (before ++ cs) p := by
  induction cs generalizing before region lineStart with
  | nil => cases h
  | cons c cs ih =>
    rw [codeLineBelow?] at h
    split at h
    · next hhere =>
      cases h
      rw [Bool.and_eq_true, Bool.and_eq_true] at hhere
      exact beginsLine_append (hbefore hhere.1.1) hhere.2
    · rw [List.append_cons]
      refine ih (before ++ [c]) (fun hline ↦ ?_) (by rw [List.length_append]; exact h)
      rcases Bool.or_eq_true_iff.mp hline with hc | hblank
      · rw [beq_iff_eq.mp hc]
        exact .line before
      · obtain ⟨hline, hblank⟩ := Bool.and_eq_true_iff.mp hblank
        exact .blank (hbefore hline) hblank

/-- The first line of code begins with a keyword of some class. -/
theorem beginsLine_of_firstCodeLine? {source : String} {p : Nat} (h : firstCodeLine? source = some p) :
    ∃ keywords ∈ codeKeywords, BeginsLine keywords source.toList p := by
  obtain ⟨hline, hkeyword⟩ := codeLineBelow?_sound [] (fun _ ↦ .start) h
  obtain ⟨k, hk, hmatch⟩ := List.any_eq_true.mp hkeyword
  obtain ⟨keywords, hkeywords, hk⟩ := List.mem_flatten.mp hk
  exact ⟨keywords, hkeywords, hline, List.any_eq_true.mpr ⟨k, hk, hmatch⟩⟩

end FeatureAtlas.Comment
