import FeatureAtlas.Datum.Plain
import FeatureAtlas.Failure.Report
import FeatureAtlas.Proofs.FeatureMap.Grouping
import FeatureAtlas.Proofs.Time.Calendar
import Mathlib.Data.String.Lemmas
import Mathlib.Tactic.Tauto

/-!
# Timestamps

A timestamp says in text which millisecond of the calendar an instant lies in. The date and time in UTC of an
instant is found by division and is shown to be the one that denotes it (`ofInstant_spec`), so a time has a
timestamp just when its instant lies in the years of the calendar, whatever its offset. All fields have a fixed
width and stand in the order of their weight, so the order of the texts is the order of the milliseconds
(`stamp_lt_iff`).
-/

namespace FeatureAtlas.DateTime

/-! ## Times of the calendar -/

/-- A date of the calendar, a time of day, and an offset of less than a day, if any. -/
structure OfCalendar (t : DateTime) : Prop where
  date : t.date.isValid = true
  hour : t.hour < 24
  minute : t.minute < 60
  second : t.second < 60
  microsecond : t.microsecond < 1000000
  offset : ∀ minutes, t.offset = some minutes → -1440 < minutes ∧ minutes < 1440

/-- A time of the calendar in UTC. -/
structure InUtc (t : DateTime) : Prop extends OfCalendar t where
  utc : t.offset = some 0

/-- The microseconds of the day that are over. -/
def microsOfDay (t : DateTime) : Nat :=
  ((t.hour * 60 + t.minute) * 60 + t.second) * 1000000 + t.microsecond

theorem instant_eq (t : DateTime) : t.instant =
    (t.date.dayNumber : Int) * 86400000000 + (t.microsOfDay : Int) - t.offset.getD 0 * 60000000 := by
  simp only [instant, microsOfDay, dayMicros, Int.ofNat_eq_natCast, Int.natCast_add, Int.natCast_mul,
    Int.add_assoc]
  rfl

theorem inRange_iff {i : Int} :
    inRange i = true ↔ 0 ≤ i ∧ i < (Date.daysBeforeYear 10000 : Int) * 86400000000 := by
  rw [inRange, Bool.and_eq_true, decide_eq_true_iff, decide_eq_true_iff]
  exact Iff.rfl

theorem OfCalendar.asUtc {t : DateTime} (h : t.OfCalendar) : t.asUtc.InUtc where
  date := h.date
  hour := h.hour
  minute := h.minute
  second := h.second
  microsecond := h.microsecond
  offset := fun minutes heq ↦ by
    obtain rfl : 0 = minutes := Option.some.inj heq
    decide
  utc := rfl

theorem OfCalendar.microsOfDay_lt {t : DateTime} (h : t.OfCalendar) :
    t.microsOfDay < 86400000000 := by
  obtain ⟨-, hhour, hminute, hsecond, hmicro, -⟩ := h
  rw [microsOfDay]
  omega

theorem InUtc.instant_eq {u : DateTime} (h : u.InUtc) :
    u.instant = (u.date.dayNumber : Int) * 86400000000 + (u.microsOfDay : Int) := by
  rw [DateTime.instant_eq, h.utc, Option.getD_some, Int.zero_mul, Int.sub_zero]

theorem InUtc.inRange {u : DateTime} (h : u.InUtc) : inRange u.instant = true := by
  have hday : u.date.dayNumber < Date.daysBeforeYear 10000 :=
    Nat.lt_of_lt_of_le (Date.dayNumber_lt h.date)
      (Date.daysBeforeYear_le (Nat.le_add_left 1 u.date.year)
        (Nat.succ_le_succ (Date.isValid_iff.mp h.date).2.1))
  have hmicros := h.microsOfDay_lt
  rw [inRange_iff, h.instant_eq]
  omega

/-! ## From instants to times -/

theorem microsOfDay_ofInstant (i : Int) :
    ((ofInstant i).microsOfDay : Int) = i % 86400000000 := by
  simp only [microsOfDay, ofInstant, dayMicros]
  omega

/-- **Every instant of the calendar's years is denoted by a time in UTC, and it is this one.** -/
theorem ofInstant_spec {i : Int} (h : DateTime.inRange i = true) :
    (ofInstant i).InUtc ∧ (ofInstant i).instant = i := by
  obtain ⟨hpos, hlt⟩ := inRange_iff.mp h
  have hday : (i / dayMicros).toNat < Date.daysBeforeYear 10000 := by
    simp only [dayMicros]
    omega
  obtain ⟨hvalid, hnumber⟩ := Date.ofDayNumber_spec hday
  have hutc : (ofInstant i).InUtc := by
    refine ⟨⟨hvalid, ?hour, ?minute, ?second, ?micro, fun minutes heq ↦ ?offset⟩, rfl⟩
    case offset =>
      obtain rfl : 0 = minutes := Option.some.inj heq
      decide
    all_goals
      simp only [ofInstant, dayMicros]
      omega
  refine ⟨hutc, ?_⟩
  have hdate : (ofInstant i).date.dayNumber = (i / dayMicros).toNat := hnumber
  rw [hutc.instant_eq, hdate, microsOfDay_ofInstant,
    Int.toNat_of_nonneg (Int.ediv_nonneg hpos (by decide))]
  exact Int.ediv_mul_add_emod i dayMicros

section Shift

variable {t : DateTime}

/-- Taking a time to UTC keeps its instant, and can fail only where no time in UTC has it. -/
theorem toUtc?_spec (h : t.OfCalendar) :
    (∀ u, t.toUtc? = some u → u.InUtc ∧ u.instant = t.instant) ∧
      (t.toUtc? = none → DateTime.inRange t.instant = false) := by
  rw [toUtc?]
  split
  · next hzero =>
    refine ⟨fun u heq ↦ ?_, fun hnone ↦ nomatch hnone⟩
    obtain rfl : t = u := Option.some.inj heq
    exact ⟨⟨h, eq_of_beq hzero⟩, rfl⟩
  · split
    · next hrange =>
      refine ⟨fun u heq ↦ ?_, fun hnone ↦ nomatch hnone⟩
      obtain rfl : ofInstant t.instant = u := Option.some.inj heq
      exact ofInstant_spec hrange
    · next hrange => exact ⟨fun u heq ↦ absurd heq.symm (Option.some_ne_none u),
        fun _ ↦ Bool.eq_false_iff.mpr hrange⟩

theorem asUtc_instant (h : t.offset = none) : t.asUtc.instant = t.instant := by
  simp only [asUtc, instant, h, Option.getD_none, Option.getD_some]

/-- The timestamp of a time is the text of the time in UTC at its instant. -/
theorem timestamp?_spec (h : t.OfCalendar) :
    (∀ text, t.timestamp? = some text → ∃ u, InUtc u ∧ u.instant = t.instant ∧ u.stamp = text) ∧
      (t.timestamp? = none → DateTime.inRange t.instant = false) := by
  rw [timestamp?]
  cases hoffset : t.offset with
  | none =>
    refine ⟨fun text heq ↦ ⟨t.asUtc, h.asUtc, asUtc_instant hoffset, Option.some.inj heq⟩,
      fun hnone ↦ nomatch hnone⟩
  | some minutes =>
    obtain ⟨hsome, hnone⟩ := toUtc?_spec h
    refine ⟨fun text heq ↦ ?_, fun heq ↦ hnone (Option.map_eq_none_iff.mp heq)⟩
    obtain ⟨u, hu, htext⟩ := Option.map_eq_some_iff.mp heq
    exact ⟨u, (hsome u hu).1, (hsome u hu).2, htext⟩

theorem isSome_timestamp?_iff (h : t.OfCalendar) :
    t.timestamp?.isSome = true ↔ ∃ u, InUtc u ∧ u.instant = t.instant := by
  obtain ⟨hsome, hnone⟩ := timestamp?_spec h
  constructor
  · intro hdefined
    obtain ⟨text, htext⟩ := Option.isSome_iff_exists.mp hdefined
    obtain ⟨u, hu, heq, -⟩ := hsome text htext
    exact ⟨u, hu, heq⟩
  · rintro ⟨u, hu, heq⟩
    refine Option.isSome_iff_ne_none.mpr fun hundefined ↦ ?_
    exact Bool.false_ne_true ((hnone hundefined).symm.trans (heq ▸ hu.inRange))

/-- A log line and a map name a time by the same text. -/
theorem logged?_eq_timestamp? (t : DateTime) : t.logged? = t.timestamp? := by
  rw [logged?, timestamp?]
  split
  · rfl
  · rfl

end Shift

/-! ## The written form -/

/-- A number in decimal digits, filled up to a width with zeros in front. -/
def padded (width n : Nat) : String := (toString n).leftpad width '0'

/-- The form `YYYY-MM-DDTHH:MM:SS.mmmZ` of a time in UTC. -/
def written (u : DateTime) : String :=
  padded 4 u.date.year ++ "-" ++ padded 2 u.date.month ++ "-" ++ padded 2 u.date.day ++ "T" ++
    padded 2 u.hour ++ ":" ++ padded 2 u.minute ++ ":" ++ padded 2 u.second ++ "." ++
    padded 3 (u.microsecond / 1000) ++ "Z"

@[simp] theorem length_digits (width n : Nat) : (digits width n).length = width := by
  induction width generalizing n with
  | zero => rfl
  | succ width ih => rw [digits, List.length_append, ih, List.length_singleton]

theorem digits_zero (width : Nat) : digits width 0 = List.replicate width '0' := by
  induction width with
  | zero => rfl
  | succ width ih => rw [digits, Nat.zero_div, ih, List.replicate_succ']; rfl

/-- A number that fits into its width is written with zeros in front of its digits. -/
theorem ofList_digits {width n : Nat} (hwidth : 0 < width) (h : n < 10 ^ width) :
    String.ofList (digits width n) = padded width n := by
  rw [padded, String.leftpad, Nat.toString_eq_repr, Nat.toList_repr]
  congr 1
  induction width generalizing n with
  | zero => exact absurd hwidth (Nat.lt_irrefl 0)
  | succ width ih =>
    rw [digits, Nat.toDigits_eq_if (by decide)]
    split
    · next hsmall =>
      rw [Nat.div_eq_of_lt hsmall, Nat.mod_eq_of_lt hsmall, digits_zero, List.leftpad,
        List.length_singleton, Nat.add_sub_cancel]
    · next hlarge =>
      have hrest : n / 10 < 10 ^ width := by
        rw [Nat.pow_succ] at h
        omega
      have hpos : 0 < width := by
        refine Nat.pos_of_ne_zero fun hzero ↦ hlarge ?_
        simpa [hzero] using h
      rw [ih hpos hrest, List.leftpad, List.leftpad, List.length_append, List.length_singleton,
        Nat.add_sub_add_right, List.append_assoc]

section Order

variable {u u' : DateTime}

theorem InUtc.day_le (h : u.InUtc) : u.date.day ≤ 31 := by
  obtain ⟨-, -, -, -, -, hday⟩ := Date.isValid_iff.mp h.date
  refine hday.trans ?_
  rw [Date.daysInMonth]
  split_ifs <;> decide

theorem InUtc.stamp_eq (h : u.InUtc) : u.stamp = u.written := by
  obtain ⟨-, hyear, -, hmonth, -, -⟩ := Date.isValid_iff.mp h.date
  have hday := h.day_le
  obtain ⟨-, hhour, hminute, hsecond, hmicro, -⟩ := h.toOfCalendar
  rw [written, ← ofList_digits (by decide) (by omega), ← ofList_digits (by decide) (by omega),
    ← ofList_digits (by decide) (by omega), ← ofList_digits (by decide) (by omega),
    ← ofList_digits (by decide) (by omega), ← ofList_digits (by decide) (by omega),
    ← ofList_digits (by decide) (by omega)]
  simp only [stamp, ← String.toList_inj, String.toList_append, String.toList_ofList,
    List.append_assoc, List.cons_append]
  rfl

theorem length_stamp (u : DateTime) : u.stamp.length = 24 := by
  simp only [stamp, String.length_ofList, List.length_append, List.length_cons, length_digits,
    List.length_nil]

/-! ## The order of timestamps -/

/-- Texts with beginnings of one length compare by these first. -/
theorem append_lt_append_iff {a a' b b' : List Char} (h : a.length = a'.length) :
    a ++ b < a' ++ b' ↔ a < a' ∨ a = a' ∧ b < b' := by
  induction a generalizing a' with
  | nil =>
    obtain rfl : a' = [] := List.length_eq_zero_iff.mp h.symm
    simp
  | cons c a ih =>
    obtain ⟨c', a', rfl⟩ := List.exists_cons_of_length_eq_add_one h.symm
    rw [List.cons_append, List.cons_append, List.cons_lt_cons_iff, List.cons_lt_cons_iff,
      ih (Nat.succ.inj h), List.cons.injEq]
    tauto

theorem digitChar_lt_digitChar_iff {n n' : Nat} (h : n < 10) (h' : n' < 10) :
    Nat.digitChar n < Nat.digitChar n' ↔ n < n' := by
  have hall : ∀ a b : Fin 10, Nat.digitChar a < Nat.digitChar b ↔ a < b := by decide
  exact hall ⟨n, h⟩ ⟨n', h'⟩

/-- Digits of one width are in the order of their numbers. -/
theorem digits_lt_digits_iff {width n n' : Nat} (h : n < 10 ^ width) (h' : n' < 10 ^ width) :
    digits width n < digits width n' ↔ n < n' := by
  induction width generalizing n n' with
  | zero =>
    obtain rfl : n = 0 := Nat.lt_one_iff.mp h
    obtain rfl : n' = 0 := Nat.lt_one_iff.mp h'
    decide
  | succ width ih =>
    have hn : n / 10 < 10 ^ width := Nat.div_lt_of_lt_mul (Nat.pow_succ' ▸ h)
    have hn' : n' / 10 < 10 ^ width := Nat.div_lt_of_lt_mul (Nat.pow_succ' ▸ h')
    have hinj : digits width (n / 10) = digits width (n' / 10) ↔ n / 10 = n' / 10 := by
      refine ⟨fun heq ↦ ?_, fun heq ↦ heq ▸ rfl⟩
      -- digits in strict order are not equal
      by_contra hne
      rcases Nat.lt_or_gt_of_ne hne with hlt | hlt
      · exact List.lt_irrefl _ (heq ▸ (ih hn hn').mpr hlt)
      · exact List.lt_irrefl _ (heq ▸ (ih hn' hn).mpr hlt)
    rw [digits, digits, append_lt_append_iff (by rw [length_digits, length_digits]), ih hn hn', hinj,
      List.cons_lt_cons_iff,
      digitChar_lt_digitChar_iff (Nat.mod_lt _ (by decide)) (Nat.mod_lt _ (by decide))]
    simp only [List.lt_irrefl, and_false, or_false]
    omega

theorem digits_inj {width n n' : Nat} (h : n < 10 ^ width) (h' : n' < 10 ^ width) :
    digits width n = digits width n' ↔ n = n' := by
  refine ⟨fun heq ↦ ?_, fun heq ↦ heq ▸ rfl⟩
  rcases Nat.lt_trichotomy n n' with hlt | heq' | hlt
  · exact absurd (heq ▸ (digits_lt_digits_iff h h').mpr hlt) (List.lt_irrefl _)
  · exact heq'
  · exact absurd (heq ▸ (digits_lt_digits_iff h' h).mpr hlt) (List.lt_irrefl _)

/-- Fields of one width in front decide, and what follows their separator decides between equal ones. -/
theorem field_lt_field_iff {width n n' : Nat} (h : n < 10 ^ width) (h' : n' < 10 ^ width)
    (separator : Char) (rest rest' : List Char) :
    digits width n ++ separator :: rest < digits width n' ++ separator :: rest' ↔
      n < n' ∨ n = n' ∧ rest < rest' := by
  rw [append_lt_append_iff (by rw [length_digits, length_digits]), digits_lt_digits_iff h h',
    digits_inj h h', List.cons_lt_cons_iff, and_iff_right rfl, or_iff_right (Char.lt_irrefl separator)]

/-- Times of day are in the order of their fields. -/
theorem microsOfDay_lt_iff (h : u.OfCalendar) (h' : u'.OfCalendar) :
    u.microsOfDay / 1000 < u'.microsOfDay / 1000 ↔
      u.hour < u'.hour ∨ u.hour = u'.hour ∧ (u.minute < u'.minute ∨ u.minute = u'.minute ∧
        (u.second < u'.second ∨ u.second = u'.second ∧
          u.microsecond / 1000 < u'.microsecond / 1000)) := by
  obtain ⟨-, -, hminute, hsecond, hmicro, -⟩ := h
  obtain ⟨-, -, hminute', hsecond', hmicro', -⟩ := h'
  rw [microsOfDay, microsOfDay]
  omega

theorem stamp_lt_iff_before (h : u.InUtc) (h' : u'.InUtc) :
    u.stamp < u'.stamp ↔ Date.Before u.date u'.date ∨
      u.date = u'.date ∧ u.microsOfDay / 1000 < u'.microsOfDay / 1000 := by
  obtain ⟨-, hyear, -, hmonth, -, -⟩ := Date.isValid_iff.mp h.date
  obtain ⟨-, hyear', -, hmonth', -, -⟩ := Date.isValid_iff.mp h'.date
  have hday := h.day_le
  have hday' := h'.day_le
  rw [microsOfDay_lt_iff h.toOfCalendar h'.toOfCalendar]
  obtain ⟨-, hhour, hminute, hsecond, hmicro, -⟩ := h.toOfCalendar
  obtain ⟨-, hhour', hminute', hsecond', hmicro', -⟩ := h'.toOfCalendar
  rw [String.lt_iff]
  simp only [stamp, String.toList_ofList, List.append_assoc, List.cons_append]
  iterate 7 rw [field_lt_field_iff (by omega) (by omega)]
  have hend : ¬([] : List Char) < [] := List.lt_irrefl _
  simp only [Date.Before, Date.eq_iff, hend, and_false, or_false, and_or_left, and_assoc, or_assoc]

/-- **Timestamps are in the order of the milliseconds of their instants.** -/
theorem stamp_lt_iff {i i' : Int} (h : u.InUtc) (h' : u'.InUtc) (hi : u.instant = i)
    (hi' : u'.instant = i') : u.stamp < u'.stamp ↔ i / 1000 < i' / 1000 := by
  have heq : i = u.date.dayNumber * 86400000000 + u.microsOfDay := hi.symm.trans h.instant_eq
  have heq' : i' = u'.date.dayNumber * 86400000000 + u'.microsOfDay := hi'.symm.trans h'.instant_eq
  have hmicros := h.microsOfDay_lt
  have hmicros' := h'.microsOfDay_lt
  rw [stamp_lt_iff_before h h', ← Date.dayNumber_lt_iff h.date h'.date,
    ← Date.dayNumber_inj h.date h'.date]
  omega

theorem stamp_eq_iff {i i' : Int} (h : u.InUtc) (h' : u'.InUtc) (hi : u.instant = i)
    (hi' : u'.instant = i') : u.stamp = u'.stamp ↔ i / 1000 = i' / 1000 := by
  have hlt := stamp_lt_iff h h' hi hi'
  have hgt := stamp_lt_iff h' h hi' hi
  constructor
  · intro heq
    have hge : ¬i / 1000 < i' / 1000 := by
      rw [← hlt, heq]
      exact String.lt_irrefl _
    have hle : ¬i' / 1000 < i / 1000 := by
      rw [← hgt, heq]
      exact String.lt_irrefl _
    omega
  · intro heq
    refine String.le_antisymm (String.not_lt.mp fun hbad ↦ ?_) (String.not_lt.mp fun hbad ↦ ?_)
    · exact absurd (hgt.mp hbad) (by omega)
    · exact absurd (hlt.mp hbad) (by omega)

/-! ## Cutting to milliseconds -/

/-- The start of a time's millisecond. -/
def cut (u : DateTime) : DateTime := { u with microsecond := u.microsecond / 1000 * 1000 }

theorem InUtc.cut (h : u.InUtc) : u.cut.InUtc where
  date := h.date
  hour := h.hour
  minute := h.minute
  second := h.second
  microsecond := (Nat.div_mul_le_self u.microsecond 1000).trans_lt h.microsecond
  offset := h.offset
  utc := h.utc

theorem InUtc.cut_instant {i : Int} (h : u.InUtc) (hi : u.instant = i) :
    u.cut.instant = i - i % 1000 := by
  have heq : i = u.date.dayNumber * 86400000000 + u.microsOfDay := hi.symm.trans h.instant_eq
  rw [h.cut.instant_eq]
  have hmicros : u.cut.microsOfDay = u.microsOfDay - u.microsOfDay % 1000 := by
    simp only [microsOfDay, DateTime.cut]
    omega
  have hday : u.cut.date = u.date := rfl
  rw [hmicros, hday]
  change @Eq Int _ _
  omega

theorem written_cut (u : DateTime) : u.cut.written = u.written := by
  simp only [written, cut, Nat.mul_div_cancel _ (Nat.succ_pos 999)]

end Order

end FeatureAtlas.DateTime

namespace FeatureAtlas.FeatureMap

variable {t : DateTime}

theorem timestamp?_of_build? {items : List Item} {descriptions : Table String}
    {types : Table (List ExportedType)} {utilities : Table (List Utility)} {m : FeatureMap}
    (h : build? items descriptions types utilities t = some m) :
    t.timestamp? = some m.generatedAt := by
  rw [build?_eq] at h
  obtain ⟨stamp, hstamp, rfl⟩ := Option.map_eq_some_iff.mp h
  exact hstamp

/-- **The time of a map denotes the millisecond of its making.** A map is made just where the instant lies in the
calendar's years in UTC, and elsewhere an overflow is reported. Its time is the written form of the millisecond
in which the instant lies; two maps' times compare as texts as these milliseconds do; and a log line names the
time by the same text. -/
theorem generatedAt_denotes (items : List Item) (descriptions : Table String)
    (types : Table (List ExportedType)) (utilities : Table (List Utility)) (h : t.OfCalendar) :
    ((build? items descriptions types utilities t).isSome = true ↔
        ∃ u : DateTime, u.InUtc ∧ u.instant = t.instant) ∧
      (build? items descriptions types utilities t = none →
        reported (Generation.mapAt items descriptions types utilities t) =
          .error ⟨.other "OverflowError", "date value out of range"⟩) ∧
      (∀ m, build? items descriptions types utilities t = some m →
        ∃ u : DateTime, u.InUtc ∧ u.instant = t.instant - t.instant % 1000 ∧
          m.generatedAt = u.written ∧ m.generatedAt.length = 24) ∧
      (∀ items' descriptions' types' utilities' t' m m', DateTime.OfCalendar t' →
        build? items descriptions types utilities t = some m →
        build? items' descriptions' types' utilities' t' = some m' →
        (m.generatedAt < m'.generatedAt ↔ t.instant / 1000 < t'.instant / 1000) ∧
          (m.generatedAt = m'.generatedAt ↔ t.instant / 1000 = t'.instant / 1000)) ∧
      Datum.plain? (.moment t) =
        (build? items descriptions types utilities t).map fun m ↦ .str m.generatedAt := by
  refine ⟨?defined, fun hnone ↦ ?overflow, fun m hm ↦ ?form, ?order, ?log⟩
  case defined =>
    rw [build?_eq, Option.isSome_map, DateTime.isSome_timestamp?_iff h]
  case overflow =>
    rw [Generation.mapAt, hnone]
    rfl
  case form =>
    obtain ⟨u, hu, hinstant, hstamp⟩ := (DateTime.timestamp?_spec h).1 _ (timestamp?_of_build? hm)
    refine ⟨u.cut, hu.cut, hu.cut_instant hinstant, ?_, ?_⟩
    · rw [DateTime.written_cut, ← hu.stamp_eq, hstamp]
    · rw [← hstamp, DateTime.length_stamp]
  case order =>
    intro _ _ _ _ t' m m' h' hm hm'
    obtain ⟨u, hu, hinstant, hstamp⟩ := (DateTime.timestamp?_spec h).1 _ (timestamp?_of_build? hm)
    obtain ⟨u', hu', hinstant', hstamp'⟩ :=
      (DateTime.timestamp?_spec h').1 _ (timestamp?_of_build? hm')
    rw [← hstamp, ← hstamp']
    exact ⟨DateTime.stamp_lt_iff hu hu' hinstant hinstant',
      DateTime.stamp_eq_iff hu hu' hinstant hinstant'⟩
  case log =>
    rw [Datum.plain?, DateTime.logged?_eq_timestamp?, build?_eq, Option.map_map]
    rfl

/-- An hour behind UTC, half an hour before midnight on a leap day: March has begun in UTC. -/
theorem generatedAt_denotes_leap_day :
    (⟨⟨2024, 2, 29⟩, 23, 30, 15, 123456, some (-60)⟩ : DateTime).OfCalendar ∧
      ∃ m, build? [] [] [] [] ⟨⟨2024, 2, 29⟩, 23, 30, 15, 123456, some (-60)⟩ = some m ∧
        m.generatedAt = "2024-03-01T00:30:15.123Z" ∧
        ∃ u : DateTime, u.InUtc ∧ u.instant = 63844849815123000 ∧ m.generatedAt = u.written := by
  have h : (⟨⟨2024, 2, 29⟩, 23, 30, 15, 123456, some (-60)⟩ : DateTime).OfCalendar := by
    refine ⟨by decide, by decide, by decide, by decide, by decide, fun minutes heq ↦ ?_⟩
    obtain rfl : -60 = minutes := Option.some.inj heq
    decide
  refine ⟨h, _, rfl, by decide +kernel, ?_⟩
  obtain ⟨u, hu, hinstant, hwritten, -⟩ := (generatedAt_denotes [] [] [] [] h).2.2.1 _ rfl
  exact ⟨u, hu, hinstant, hwritten⟩

end FeatureAtlas.FeatureMap
