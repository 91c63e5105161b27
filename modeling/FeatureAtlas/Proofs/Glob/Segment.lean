import FeatureAtlas.Glob.Basic
import FeatureAtlas.Proofs.Text.Split

/-!
# Globs match segment by segment

A glob is matched character by character, and what two stars stand for may cross segments. Where two stars
are always a segment of their own, a match is nevertheless an assignment of the path's segments to those of
the glob: each pair of stars takes a run of whole segments, and every other segment takes one segment that it
is like.

A match is followed along the segments of the glob. What a segment of single characters takes has no slash
in it, so it is a whole segment of the path as soon as a slash or the end has to follow; what two stars take
ends with a slash or with the path.
-/

namespace FeatureAtlas.Glob

/-! ## Assignments -/

/-- A segment of a glob is like a segment of a path, character by character: a star stands for any run of
characters, a question mark for one, and any other character for itself. -/
inductive Like : List Char → List Char → Prop
  | nil : Like [] []
  | star {segment rest : List Char} (taken : List Char) (h : Like segment rest) :
      Like ('*' :: segment) (taken ++ rest)
  | question {segment rest : List Char} (c : Char) (h : Like segment rest) :
      Like ('?' :: segment) (c :: rest)
  | char {c : Char} {segment rest : List Char} (hstar : c ≠ '*') (hquestion : c ≠ '?')
      (h : Like segment rest) : Like (c :: segment) (c :: rest)

/-- The segment that takes any number of segments. -/
def deepSegment : List Char := ['*', '*']

/-- The segments of a path are assigned in order to those of a glob. Two stars take any number of them, but
at the end of the glob at least one; every other segment takes one that it is like. -/
inductive Assigned : List (List Char) → List (List Char) → Prop
  | nil : Assigned [] []
  | deep {segments rest : List (List Char)} (taken : List (List Char))
      (hlast : segments = [] → taken ≠ []) (h : Assigned segments rest) :
      Assigned (deepSegment :: segments) (taken ++ rest)
  | single {segment piece : List Char} {segments rest : List (List Char)}
      (hsegment : segment ≠ deepSegment) (hlike : Like segment piece) (h : Assigned segments rest) :
      Assigned (segment :: segments) (piece :: rest)

/-- Two stars are a segment of their own wherever they occur. -/
def Segmented (glob : String) : Prop :=
  ∀ segment ∈ Text.splitOn '/' glob.toList, segment = deepSegment ∨ ¬deepSegment <:+: segment

instance (glob : String) : Decidable (Segmented glob) :=
  inferInstanceAs (Decidable (∀ segment ∈ _, _ ∨ _))

section

variable {segment : List Char} {segments path : List (List Char)}

theorem assigned_nil_iff : Assigned [] path ↔ path = [] := by
  constructor
  · rintro ⟨⟩
    rfl
  · rintro rfl
    exact .nil

theorem assigned_deep_iff : Assigned (deepSegment :: segments) path ↔
    ∃ taken rest, path = taken ++ rest ∧ (segments = [] → taken ≠ []) ∧ Assigned segments rest := by
  constructor
  · intro h
    cases h with
    | deep taken hlast h => exact ⟨taken, _, rfl, hlast, h⟩
    | single hsegment hlike h => exact absurd rfl hsegment
  · rintro ⟨taken, rest, rfl, hlast, h⟩
    exact .deep taken hlast h

theorem assigned_single_iff (hsegment : segment ≠ deepSegment) :
    Assigned (segment :: segments) path ↔
      ∃ piece rest, path = piece :: rest ∧ Like segment piece ∧ Assigned segments rest := by
  constructor
  · intro h
    cases h with
    | deep taken hlast h => exact absurd rfl hsegment
    | single hsegment hlike h => exact ⟨_, _, rfl, hlike, h⟩
  · rintro ⟨piece, rest, rfl, hlike, h⟩
    exact .single hsegment hlike h

theorem Assigned.ne_nil (h : Assigned segments path) (hne : segments ≠ []) : path ≠ [] := by
  induction h with
  | nil => exact absurd rfl hne
  | single => exact List.cons_ne_nil _ _
  | @deep segments rest taken hlast h ih =>
    by_cases hsegments : segments = []
    · exact List.append_ne_nil_of_left_ne_nil (hlast hsegments) rest
    · exact List.append_ne_nil_of_right_ne_nil taken (ih hsegments)

end

/-! ## What the parts of a glob take -/

section

variable {test : List Char → Bool} {glob : Glob} {cs : List Char}

theorem afterRun_iff (p : Char → Bool) : afterRun p test cs = true ↔
    ∃ taken rest, cs = taken ++ rest ∧ (∀ c ∈ taken, p c = true) ∧ test rest = true := by
  induction cs with
  | nil =>
    rw [afterRun]
    constructor
    · exact fun h ↦ ⟨[], [], rfl, nofun, h⟩
    · rintro ⟨taken, rest, hcs, -, h⟩
      rwa [(List.append_eq_nil_iff.mp hcs.symm).2] at h
  | cons c cs ih =>
    rw [afterRun, Bool.or_eq_true, Bool.and_eq_true, ih]
    constructor
    · rintro (h | ⟨hc, taken, rest, rfl, htaken, h⟩)
      · exact ⟨[], c :: cs, rfl, nofun, h⟩
      · exact ⟨c :: taken, rest, rfl, List.forall_mem_cons.mpr ⟨hc, htaken⟩, h⟩
    · rintro ⟨taken, rest, hcs, htaken, h⟩
      cases taken with
      | nil => exact .inl (by rwa [hcs])
      | cons d taken =>
        obtain ⟨rfl, rfl⟩ := List.cons.inj hcs
        obtain ⟨hc, htaken⟩ := List.forall_mem_cons.mp htaken
        exact .inr ⟨hc, taken, rest, rfl, htaken, h⟩

theorem afterSlash_iff : afterSlash test cs = true ↔
    ∃ taken rest, cs = taken ++ '/' :: rest ∧ '\n' ∉ taken ∧ test rest = true := by
  induction cs with
  | nil =>
    rw [afterSlash]
    exact iff_of_false nofun fun ⟨taken, rest, hcs, _⟩ ↦ by simp at hcs
  | cons c cs ih =>
    rw [afterSlash, Bool.or_eq_true, Bool.and_eq_true, Bool.and_eq_true, ih, beq_iff_eq, bne_iff_ne]
    constructor
    · rintro (⟨rfl, h⟩ | ⟨hc, taken, rest, rfl, htaken, h⟩)
      · exact ⟨[], cs, rfl, List.not_mem_nil, h⟩
      · refine ⟨c :: taken, rest, rfl, fun hmem ↦ ?_, h⟩
        exact (List.mem_cons.mp hmem).elim (fun heq ↦ hc heq.symm) htaken
    · rintro ⟨taken, rest, hcs, htaken, h⟩
      cases taken with
      | nil =>
        obtain ⟨rfl, rfl⟩ := List.cons.inj hcs
        exact .inl ⟨rfl, h⟩
      | cons d taken =>
        obtain ⟨rfl, rfl⟩ := List.cons.inj hcs
        rw [List.mem_cons, not_or] at htaken
        exact .inr ⟨Ne.symm htaken.1, taken, rest, rfl, htaken.2, h⟩

theorem isMatch_run : isMatch (.run :: glob) cs = true ↔
    ∃ taken rest, cs = taken ++ rest ∧ '/' ∉ taken ∧ isMatch glob rest = true := by
  have hclass (taken : List Char) : (∀ c ∈ taken, (c != '/') = true) ↔ '/' ∉ taken := by
    simp only [bne_iff_ne]
    exact ⟨fun h hmem ↦ h _ hmem rfl, fun h c hc heq ↦ h (heq ▸ hc)⟩
  rw [isMatch, afterRun_iff]
  simp only [hclass]

theorem isMatch_one : isMatch (.one :: glob) cs = true ↔
    ∃ c rest, cs = c :: rest ∧ c ≠ '/' ∧ isMatch glob rest = true := by
  cases cs with
  | nil => exact iff_of_false nofun nofun
  | cons d cs =>
    rw [isMatch, Bool.and_eq_true, bne_iff_ne]
    constructor
    · rintro ⟨hd, h⟩
      exact ⟨d, cs, rfl, hd, h⟩
    · rintro ⟨_, _, ⟨⟩, hd, h⟩
      exact ⟨hd, h⟩

theorem isMatch_char {c : Char} : isMatch (.char c :: glob) cs = true ↔
    ∃ rest, cs = c :: rest ∧ isMatch glob rest = true := by
  cases cs with
  | nil => exact iff_of_false nofun nofun
  | cons d cs =>
    rw [isMatch, Bool.and_eq_true, beq_iff_eq]
    constructor
    · rintro ⟨rfl, h⟩
      exact ⟨cs, rfl, h⟩
    · rintro ⟨_, ⟨⟩, h⟩
      exact ⟨rfl, h⟩

/-- At the end, two stars take whatever is left. -/
theorem isMatch_deep (h : '\n' ∉ cs) : isMatch [.deep] cs = true := by
  rw [isMatch, afterRun_iff]
  refine ⟨cs, [], (List.append_nil cs).symm, fun c hc ↦ bne_iff_ne.mpr ?_, rfl⟩
  rintro rfl
  exact h hc

/-- Two stars with a slash behind them take nothing, or whatever ends with a slash. -/
theorem isMatch_segments (h : '\n' ∉ cs) : isMatch (.segments :: glob) cs = true ↔
    isMatch glob cs = true ∨ ∃ taken rest, cs = taken ++ '/' :: rest ∧ isMatch glob rest = true := by
  rw [isMatch, Bool.or_eq_true, afterSlash_iff]
  refine or_congr_right (exists_congr fun taken ↦ exists_congr fun rest ↦ ?_)
  refine and_congr_right fun hcs ↦ and_iff_right fun hmem ↦ h ?_
  rw [hcs]
  exact List.mem_append_left _ hmem

end

/-! ## Reading segments -/

/-- What a character in a segment is read as. -/
def partOf (c : Char) : GlobPart := if c = '*' then .run else if c = '?' then .one else .char c

theorem ofChars_cons {c : Char} {rest : List Char} (h : c = '*' → rest.head? ≠ some '*') :
    ofChars (c :: rest) = partOf c :: ofChars rest := by
  rw [partOf]
  by_cases hstar : c = '*'
  · have hrest : ∀ more, rest ≠ '*' :: more := by
      rintro more rfl
      exact h hstar rfl
    rw [if_pos hstar, hstar, ofChars.eq_3 rest (fun more ↦ hrest _) hrest]
  · rw [if_neg hstar]
    by_cases hquestion : c = '?'
    · rw [if_pos hquestion, hquestion, ofChars]
    · rw [if_neg hquestion, ofChars.eq_5 c rest (fun _ hc ↦ absurd hc hstar)
        (fun _ hc ↦ absurd hc hstar) hstar hquestion]

/-- A segment without two stars is read character by character. -/
theorem ofChars_append {segment rest : List Char} (hsegment : ¬deepSegment <:+: segment)
    (hrest : rest.head? ≠ some '*') :
    ofChars (segment ++ rest) = segment.map partOf ++ ofChars rest := by
  induction segment with
  | nil => rfl
  | cons c segment ih =>
    have htail : ¬deepSegment <:+: segment := fun h ↦ hsegment (List.infix_cons h)
    have hnext : c = '*' → (segment ++ rest).head? ≠ some '*' := by
      rintro rfl hnext
      cases segment with
      | nil => exact hrest hnext
      | cons d segment =>
        obtain rfl : d = '*' := by simpa using hnext
        exact hsegment (List.prefix_append deepSegment segment).isInfix
    rw [List.cons_append, ofChars_cons hnext, ih htail, List.map_cons, List.cons_append]

/-- Runs of characters that a character in a segment stands for. -/
def Takes (c : Char) (taken : List Char) : Prop :=
  c = '*' ∨ c = '?' ∧ taken.length = 1 ∨ (c ≠ '*' ∧ c ≠ '?') ∧ taken = [c]

theorem like_cons_iff {c : Char} {segment cs : List Char} : Like (c :: segment) cs ↔
    ∃ taken rest, cs = taken ++ rest ∧ Takes c taken ∧ Like segment rest := by
  constructor
  · intro h
    cases h with
    | star taken h => exact ⟨taken, _, rfl, .inl rfl, h⟩
    | question c h => exact ⟨[c], _, rfl, .inr (.inl ⟨rfl, rfl⟩), h⟩
    | char hstar hquestion h => exact ⟨[c], _, rfl, .inr (.inr ⟨⟨hstar, hquestion⟩, rfl⟩), h⟩
  · rintro ⟨taken, rest, rfl, rfl | ⟨rfl, htaken⟩ | ⟨⟨hstar, hquestion⟩, rfl⟩, h⟩
    · exact .star taken h
    · obtain ⟨d, rfl⟩ := List.length_eq_one_iff.mp htaken
      exact .question d h
    · exact .char hstar hquestion h

/-- A character in a segment takes what it stands for, without a slash. -/
theorem isMatch_partOf {c : Char} {glob : Glob} {cs : List Char} (h : c ≠ '/') :
    isMatch (partOf c :: glob) cs = true ↔
      ∃ taken rest, cs = taken ++ rest ∧ Takes c taken ∧ '/' ∉ taken ∧
        isMatch glob rest = true := by
  rw [partOf]
  by_cases hstar : c = '*'
  · rw [if_pos hstar, isMatch_run]
    simp only [Takes, hstar, true_or, true_and]
  · rw [if_neg hstar]
    by_cases hquestion : c = '?'
    · rw [if_pos hquestion, isMatch_one]
      constructor
      · rintro ⟨d, rest, rfl, hd, hmatch⟩
        exact ⟨[d], rest, rfl, .inr (.inl ⟨hquestion, rfl⟩), by simpa using hd.symm, hmatch⟩
      · rintro ⟨taken, rest, rfl, htakes, hslash, hmatch⟩
        obtain hc | ⟨-, htaken⟩ | ⟨⟨-, hc⟩, -⟩ := htakes
        · exact absurd hc hstar
        · obtain ⟨d, rfl⟩ := List.length_eq_one_iff.mp htaken
          exact ⟨d, rest, rfl, Ne.symm (by simpa using hslash), hmatch⟩
        · exact absurd hquestion hc
    · rw [if_neg hquestion, isMatch_char]
      simp only [Takes, hstar, hquestion, false_or, false_and, ne_eq, not_false_eq_true, true_and]
      constructor
      · rintro ⟨rest, rfl, hmatch⟩
        exact ⟨[c], rest, rfl, rfl, by simpa using h.symm, hmatch⟩
      · rintro ⟨_, rest, rfl, rfl, -, hmatch⟩
        exact ⟨rest, rfl, hmatch⟩

/-- Single characters take what they are like, without a slash. -/
theorem isMatch_map_partOf {segment : List Char} {glob : Glob} {cs : List Char}
    (h : '/' ∉ segment) : isMatch (segment.map partOf ++ glob) cs = true ↔
      ∃ piece rest, cs = piece ++ rest ∧ '/' ∉ piece ∧ Like segment piece ∧
        isMatch glob rest = true := by
  induction segment generalizing cs with
  | nil =>
    constructor
    · exact fun hmatch ↦ ⟨[], cs, rfl, List.not_mem_nil, .nil, hmatch⟩
    · rintro ⟨_, rest, rfl, -, ⟨⟩, hmatch⟩
      exact hmatch
  | cons c segment ih =>
    rw [List.mem_cons, not_or] at h
    rw [List.map_cons, List.cons_append, isMatch_partOf (Ne.symm h.1)]
    simp only [ih h.2, like_cons_iff]
    constructor
    · rintro ⟨taken, _, rfl, htakes, htaken, piece, rest, rfl, hpiece, hlike, hmatch⟩
      refine ⟨taken ++ piece, rest, (List.append_assoc ..).symm, fun hmem ↦ ?_,
        ⟨taken, piece, rfl, htakes, hlike⟩, hmatch⟩
      exact (List.mem_append.mp hmem).elim htaken hpiece
    · rintro ⟨_, rest, rfl, hslash, ⟨taken, piece, rfl, htakes, hlike⟩, hmatch⟩
      rw [List.mem_append, not_or] at hslash
      exact ⟨taken, piece ++ rest, List.append_assoc .., htakes, hslash.1, piece, rest, rfl,
        hslash.2, hlike, hmatch⟩

/-! ## Whole globs -/

section

variable {segment : List Char} {segments : List (List Char)} {cs : List Char}

/-- With segments behind them, two stars take nothing or what ends with a slash. -/
theorem assigned_deep_splitOn_iff (hne : segments ≠ []) :
    Assigned (deepSegment :: segments) (Text.splitOn '/' cs) ↔
      Assigned segments (Text.splitOn '/' cs) ∨
        ∃ taken rest, cs = taken ++ '/' :: rest ∧ Assigned segments (Text.splitOn '/' rest) := by
  rw [assigned_deep_iff]
  constructor
  · rintro ⟨taken, rest, hsplit, -, h⟩
    by_cases htaken : taken = []
    · rw [htaken, List.nil_append] at hsplit
      exact .inl (hsplit ▸ h)
    · obtain ⟨front, behind, hcs, -, rfl⟩ :=
        (Text.splitOn_eq_append_iff htaken (h.ne_nil hne)).mp hsplit
      exact .inr ⟨front, behind, hcs, h⟩
  · rintro (h | ⟨taken, rest, rfl, h⟩)
    · exact ⟨[], _, rfl, fun heq ↦ absurd heq hne, h⟩
    · exact ⟨_, _, Text.splitOn_append taken rest, fun heq ↦ absurd heq hne, h⟩

/-- With segments behind it, a segment without two stars takes what is in front of the first slash. -/
theorem assigned_single_splitOn_iff (hne : segments ≠ []) (hsegment : segment ≠ deepSegment) :
    Assigned (segment :: segments) (Text.splitOn '/' cs) ↔
      ∃ piece rest, cs = piece ++ '/' :: rest ∧ '/' ∉ piece ∧ Like segment piece ∧
        Assigned segments (Text.splitOn '/' rest) := by
  rw [assigned_single_iff hsegment]
  constructor
  · rintro ⟨piece, rest, hsplit, hlike, h⟩
    have hpiece : '/' ∉ piece := Text.not_mem_of_mem_splitOn (hsplit ▸ List.mem_cons_self)
    obtain ⟨front, behind, hcs, hfront, rfl⟩ :=
      (Text.splitOn_eq_append_iff (List.cons_ne_nil piece []) (h.ne_nil hne)).mp hsplit
    have heq : front = piece := by
      rw [← Text.intercalate_splitOn '/' front, hfront, List.intercalate_singleton]
    exact ⟨piece, behind, heq ▸ hcs, hpiece, hlike, h⟩
  · rintro ⟨piece, rest, rfl, hpiece, hlike, h⟩
    refine ⟨piece, _, ?_, hlike, h⟩
    rw [Text.splitOn_append, Text.splitOn_of_not_mem hpiece, List.singleton_append]

/-- At the end of a glob, a segment without two stars takes a path of one segment. -/
theorem assigned_last_splitOn_iff (hsegment : segment ≠ deepSegment) :
    Assigned [segment] (Text.splitOn '/' cs) ↔ '/' ∉ cs ∧ Like segment cs := by
  rw [assigned_single_iff hsegment]
  constructor
  · rintro ⟨piece, rest, hsplit, hlike, h⟩
    obtain rfl := assigned_nil_iff.mp h
    have heq : cs = piece := by
      rw [← Text.intercalate_splitOn '/' cs, hsplit, List.intercalate_singleton]
    exact heq ▸ ⟨Text.not_mem_of_mem_splitOn (hsplit ▸ List.mem_cons_self), hlike⟩
  · rintro ⟨hslash, hlike⟩
    exact ⟨cs, [], Text.splitOn_of_not_mem hslash, hlike, .nil⟩

theorem isMatch_ofChars_last (hsegment : ¬deepSegment <:+: segment) (hslash : '/' ∉ segment) :
    isMatch (ofChars segment) cs = true ↔ '/' ∉ cs ∧ Like segment cs := by
  have hread : ofChars (segment ++ []) = segment.map partOf ++ ofChars [] :=
    ofChars_append hsegment nofun
  rw [List.append_nil] at hread
  rw [hread, isMatch_map_partOf hslash]
  constructor
  · rintro ⟨piece, rest, rfl, hpiece, hlike, hmatch⟩
    rw [List.isEmpty_iff.mp hmatch, List.append_nil]
    exact ⟨hpiece, hlike⟩
  · rintro ⟨hcs, hlike⟩
    exact ⟨cs, [], (List.append_nil cs).symm, hcs, hlike, rfl⟩

theorem isMatch_ofChars_single {more : List Char} (hsegment : ¬deepSegment <:+: segment)
    (hslash : '/' ∉ segment) : isMatch (ofChars (segment ++ '/' :: more)) cs = true ↔
      ∃ piece rest, cs = piece ++ '/' :: rest ∧ '/' ∉ piece ∧ Like segment piece ∧
        isMatch (ofChars more) rest = true := by
  have hread : ofChars ('/' :: more) = .char '/' :: ofChars more :=
    ofChars_cons fun h ↦ absurd h (by decide)
  rw [ofChars_append hsegment (by simp), isMatch_map_partOf hslash, hread]
  simp only [isMatch_char]
  constructor
  · rintro ⟨piece, _, rfl, hpiece, hlike, rest, rfl, hmatch⟩
    exact ⟨piece, rest, rfl, hpiece, hlike, hmatch⟩
  · rintro ⟨piece, rest, rfl, hpiece, hlike, hmatch⟩
    exact ⟨piece, _, rfl, hpiece, hlike, rest, rfl, hmatch⟩

/-- A glob matches the paths whose segments are assigned to its own. -/
theorem isMatch_intercalate (hne : segments ≠ [])
    (hdeep : ∀ s ∈ segments, s = deepSegment ∨ ¬deepSegment <:+: s)
    (hslash : ∀ s ∈ segments, '/' ∉ s) (hcs : '\n' ∉ cs) :
    isMatch (ofChars (['/'].intercalate segments)) cs = true ↔
      Assigned segments (Text.splitOn '/' cs) := by
  induction segments generalizing cs with
  | nil => exact absurd rfl hne
  | cons segment segments ih =>
    obtain ⟨hsegment, hdeep'⟩ := List.forall_mem_cons.mp hdeep
    obtain ⟨hfree, hslash'⟩ := List.forall_mem_cons.mp hslash
    have hnot : ¬deepSegment <:+: segment → segment ≠ deepSegment :=
      fun h heq ↦ h (heq ▸ List.infix_refl _)
    have hrest : ∀ front rest, cs = front ++ '/' :: rest → '\n' ∉ rest := by
      rintro front rest rfl hmem
      exact hcs (List.mem_append_right front (List.mem_cons_of_mem '/' hmem))
    cases segments with
    | nil =>
      rw [List.intercalate_singleton]
      rcases hsegment with rfl | hsegment
      · refine iff_of_true (isMatch_deep hcs) (assigned_deep_iff.mpr ?_)
        exact ⟨_, [], (List.append_nil _).symm, fun _ ↦ Text.splitOn_ne_nil '/' cs, .nil⟩
      · rw [isMatch_ofChars_last hsegment hfree, assigned_last_splitOn_iff (hnot hsegment)]
    | cons next others =>
      have hmore := List.cons_ne_nil next others
      rw [List.intercalate_cons_cons, List.append_assoc, List.singleton_append]
      rcases hsegment with rfl | hsegment
      · rw [assigned_deep_splitOn_iff hmore, ← ih hmore hdeep' hslash' hcs]
        refine (isMatch_segments hcs).trans (or_congr_right ?_)
        refine exists_congr fun taken ↦ exists_congr fun rest ↦ and_congr_right fun heq ↦ ?_
        exact ih hmore hdeep' hslash' (hrest taken rest heq)
      · rw [assigned_single_splitOn_iff hmore (hnot hsegment), isMatch_ofChars_single hsegment hfree]
        refine exists_congr fun piece ↦ exists_congr fun rest ↦ and_congr_right fun heq ↦ ?_
        rw [ih hmore hdeep' hslash' (hrest piece rest heq)]

/-- **Globs match segment by segment**, if two stars are a segment wherever they occur. -/
theorem matchesAny_iff_assigned {glob path : String} (hglob : Segmented glob)
    (hpath : '\n' ∉ path.toList) : matchesAny [glob] path = true ↔
      Assigned (Text.splitOn '/' glob.toList) (Text.splitOn '/' path.toList) := by
  have hmatch := isMatch_intercalate (Text.splitOn_ne_nil '/' glob.toList) hglob
    (fun _ ↦ Text.not_mem_of_mem_splitOn) hpath
  rw [Text.intercalate_splitOn] at hmatch
  rw [matchesAny, List.any_cons, List.any_nil, Bool.or_false, hmatch]

/-- Neighbouring pairs of stars share the segments that they take; none of them takes a part of one. -/
theorem matchesAny_iff_assigned_neighbours :
    let glob := "src/**/**/*.t?"
    let path := "src/ui/card.ts"
    Segmented glob ∧ '\n' ∉ path.toList ∧
      Assigned (Text.splitOn '/' glob.toList) (Text.splitOn '/' path.toList) ∧
      Segmented "**/card.ts" ∧ '\n' ∉ "ui/mycard.ts".toList ∧
      ¬Assigned (Text.splitOn '/' "**/card.ts".toList) (Text.splitOn '/' "ui/mycard.ts".toList) := by
  intro glob path
  have hglob : Segmented glob := by decide +kernel
  have hpath : '\n' ∉ path.toList := by decide +kernel
  have hglob' : Segmented "**/card.ts" := by decide +kernel
  have hpath' : '\n' ∉ "ui/mycard.ts".toList := by decide +kernel
  exact ⟨hglob, hpath, (matchesAny_iff_assigned hglob hpath).mp (by decide +kernel), hglob', hpath',
    mt (matchesAny_iff_assigned hglob' hpath').mpr (by decide +kernel)⟩

end

end FeatureAtlas.Glob
