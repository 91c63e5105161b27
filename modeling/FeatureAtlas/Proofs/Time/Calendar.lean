import FeatureAtlas.Time.Calendar
import Mathlib.Algebra.BigOperators.Group.List.Basic
import Mathlib.Algebra.GroupWithZero.Nat
import Mathlib.Data.Prod.Lex

/-!
# Days and dates

The number of days before a date is a formula for the years and a sum for the months. Here it is shown to be
what it should be: each year adds its days and each month its days, so the dates of the calendar are in the
order of their day numbers. The way back finds the year by divisions through cycles of 400, 100, 4 and 1
years, of which the last one of each may be a day longer or shorter, and then the month by subtraction;
`ofDayNumber_spec` says that what it finds for a day before the year 10000 is a date of the calendar and has
that day.
-/

namespace FeatureAtlas.Date

/-! ## Years -/

/-- The number of days of a year. -/
def daysInYear (year : Nat) : Nat := if isLeap year then 366 else 365

theorem isLeap_iff {year : Nat} :
    isLeap year = true ↔ year % 4 = 0 ∧ (year % 100 ≠ 0 ∨ year % 400 = 0) := by
  simp [isLeap]

theorem daysBeforeYear_succ {year : Nat} (h : 1 ≤ year) :
    daysBeforeYear (year + 1) = daysBeforeYear year + daysInYear year := by
  obtain ⟨y, rfl⟩ := Nat.exists_eq_add_of_le' h
  simp only [daysBeforeYear, Nat.add_sub_cancel, daysInYear, isLeap_iff]
  have hle : y / 100 ≤ y / 4 := Nat.div_le_div_left (by decide) (by decide)
  -- a cycle counts once its last year is over
  by_cases h400 : (y + 1) % 400 = 0
  · have hq : (y + 1) / 4 = y / 4 + 1 ∧ (y + 1) / 100 = y / 100 + 1 ∧ (y + 1) / 400 = y / 400 + 1 := by
      omega
    rw [if_pos ⟨by omega, Or.inr h400⟩, hq.1, hq.2.1, hq.2.2]
    omega
  · have h400' : (y + 1) / 400 = y / 400 := by omega
    by_cases h100 : (y + 1) % 100 = 0
    · have hq : (y + 1) / 4 = y / 4 + 1 ∧ (y + 1) / 100 = y / 100 + 1 := by omega
      rw [if_neg fun hleap ↦ hleap.2.elim (· h100) h400, hq.1, hq.2, h400']
      omega
    · have h100' : (y + 1) / 100 = y / 100 := by omega
      by_cases h4 : (y + 1) % 4 = 0
      · have h4' : (y + 1) / 4 = y / 4 + 1 := by omega
        rw [if_pos ⟨h4, Or.inl h100⟩, h4', h100', h400']
        omega
      · have h4' : (y + 1) / 4 = y / 4 := by omega
        rw [if_neg fun hleap ↦ h4 hleap.1, h4', h100', h400']
        omega

theorem daysBeforeYear_le {year year' : Nat} (hpos : 1 ≤ year) (h : year ≤ year') :
    daysBeforeYear year ≤ daysBeforeYear year' := by
  induction year', h using Nat.le_induction with
  | base => exact Nat.le_refl _
  | succ n hn ih =>
    rw [daysBeforeYear_succ (Nat.le_trans hpos hn)]
    exact Nat.le_trans ih (Nat.le_add_right _ _)

/-! ## Months -/

theorem daysBeforeMonth_eq_sum (year month : Nat) :
    daysBeforeMonth year month
      = ((List.range (month - 1)).map fun m ↦ daysInMonth year (m + 1)).sum := by
  rw [daysBeforeMonth, List.sum_eq_foldr, List.foldr_map]

theorem daysBeforeMonth_succ (year : Nat) {month : Nat} (h : 1 ≤ month) :
    daysBeforeMonth year (month + 1) = daysBeforeMonth year month + daysInMonth year month := by
  obtain ⟨m, rfl⟩ := Nat.exists_eq_add_of_le' h
  rw [daysBeforeMonth_eq_sum, daysBeforeMonth_eq_sum, Nat.add_sub_cancel, Nat.add_sub_cancel,
    List.range_succ, List.map_append, List.sum_append, List.map_singleton, List.sum_singleton]

theorem daysBeforeMonth_le (year : Nat) {month month' : Nat} (hpos : 1 ≤ month)
    (h : month ≤ month') : daysBeforeMonth year month ≤ daysBeforeMonth year month' := by
  induction month', h using Nat.le_induction with
  | base => exact Nat.le_refl _
  | succ n hn ih =>
    rw [daysBeforeMonth_succ year (Nat.le_trans hpos hn)]
    exact Nat.le_trans ih (Nat.le_add_right _ _)

/-- The months make up the year. -/
theorem daysBeforeMonth_thirteen (year : Nat) : daysBeforeMonth year 13 = daysInYear year := by
  rw [daysInYear]
  cases hleap : isLeap year <;> simp [daysBeforeMonth, List.range_succ, daysInMonth, hleap]

/-! ## The order of dates -/

theorem isValid_iff {d : Date} : d.isValid = true ↔
    1 ≤ d.year ∧ d.year ≤ 9999 ∧ 1 ≤ d.month ∧ d.month ≤ 12 ∧ 1 ≤ d.day ∧
      d.day ≤ daysInMonth d.year d.month := by
  simp [isValid, and_assoc]

/-- A date before another one: by year, then by month, then by day. -/
def Before (d d' : Date) : Prop :=
  d.year < d'.year ∨ d.year = d'.year ∧
    (d.month < d'.month ∨ d.month = d'.month ∧ d.day < d'.day)

/-- A day of the year stands before the end of its month. -/
theorem dayOfYear_lt {d : Date} (h : d.isValid = true) :
    daysBeforeMonth d.year d.month + (d.day - 1) < daysBeforeMonth d.year (d.month + 1) := by
  obtain ⟨-, -, hmonth, -, hday, hle⟩ := isValid_iff.mp h
  rw [daysBeforeMonth_succ d.year hmonth]
  omega

theorem dayNumber_lt {d : Date} (h : d.isValid = true) :
    d.dayNumber < daysBeforeYear (d.year + 1) := by
  obtain ⟨hyear, -, -, hmonth, -, -⟩ := isValid_iff.mp h
  have hlt := dayOfYear_lt h
  have hle := daysBeforeMonth_le d.year (Nat.le_add_left 1 d.month) (Nat.succ_le_succ hmonth)
  rw [daysBeforeMonth_thirteen] at hle
  rw [dayNumber, daysBeforeYear_succ hyear]
  omega

theorem dayNumber_lt_dayNumber {d d' : Date} (h : d.isValid = true)
    (hbefore : Before d d') : d.dayNumber < d'.dayNumber := by
  obtain ⟨-, -, hmonth, -, hday, -⟩ := isValid_iff.mp h
  have hyear' : daysBeforeYear d'.year ≤ d'.dayNumber := by
    rw [dayNumber, Nat.add_assoc]
    exact Nat.le_add_right _ _
  rcases hbefore with hlt | ⟨heq, hrest⟩
  · exact Nat.lt_of_lt_of_le (dayNumber_lt h)
      (Nat.le_trans (daysBeforeYear_le (Nat.le_add_left 1 d.year) hlt) hyear')
  · simp only [dayNumber, ← heq]
    rcases hrest with hlt | ⟨heq', hlt⟩
    · have hend := dayOfYear_lt h
      have hle := daysBeforeMonth_le d.year (Nat.le_add_left 1 d.month) hlt
      omega
    · rw [← heq']
      omega

theorem eq_iff {d d' : Date} :
    d = d' ↔ d.year = d'.year ∧ d.month = d'.month ∧ d.day = d'.day := by
  obtain ⟨year, month, day⟩ := d
  obtain ⟨year', month', day'⟩ := d'
  rw [Date.mk.injEq]

theorem before_or_eq_or_before (d d' : Date) : Before d d' ∨ d = d' ∨ Before d' d := by
  simp only [Before, eq_iff]
  omega

/-- **The dates of the calendar are in the order of their days.** -/
theorem dayNumber_lt_iff {d d' : Date} (h : d.isValid = true) (h' : d'.isValid = true) :
    d.dayNumber < d'.dayNumber ↔ Before d d' := by
  refine ⟨fun hlt ↦ ?_, dayNumber_lt_dayNumber h⟩
  rcases before_or_eq_or_before d d' with hbefore | rfl | hbefore
  · exact hbefore
  · exact absurd hlt (Nat.lt_irrefl _)
  · exact absurd hlt (Nat.lt_asymm (dayNumber_lt_dayNumber h' hbefore))

theorem dayNumber_inj {d d' : Date} (h : d.isValid = true) (h' : d'.isValid = true) :
    d.dayNumber = d'.dayNumber ↔ d = d' := by
  refine ⟨fun heq ↦ ?_, congrArg dayNumber⟩
  rcases before_or_eq_or_before d d' with hbefore | rfl | hbefore
  · exact absurd heq (Nat.ne_of_lt (dayNumber_lt_dayNumber h hbefore))
  · rfl
  · exact absurd heq.symm (Nat.ne_of_lt (dayNumber_lt_dayNumber h' hbefore))

/-! ## From days to dates -/

/-- The way through the months of a year, from a month on. -/
theorem monthAndDay_spec (year : Nat) : ∀ fuel month days, 1 ≤ month → month + fuel = 13 →
    daysBeforeMonth year month + days < daysBeforeMonth year 13 →
    1 ≤ (monthAndDay year fuel month days).1 ∧ (monthAndDay year fuel month days).1 ≤ 12 ∧
      1 ≤ (monthAndDay year fuel month days).2 ∧
      (monthAndDay year fuel month days).2 ≤ daysInMonth year (monthAndDay year fuel month days).1 ∧
      daysBeforeMonth year (monthAndDay year fuel month days).1
        + ((monthAndDay year fuel month days).2 - 1) = daysBeforeMonth year month + days := by
  intro fuel
  induction fuel with
  | zero =>
    intro month days _ hend hlt
    obtain rfl : month = 13 := hend
    exact absurd hlt (Nat.not_lt.mpr (Nat.le_add_right _ _))
  | succ fuel ih =>
    intro month days hpos hend hlt
    simp only [monthAndDay]
    split
    · next hday => exact ⟨hpos, by omega, Nat.le_add_left _ _, hday, rfl⟩
    · next hday =>
      have hnext := daysBeforeMonth_succ year hpos
      have hrest := ih (month + 1) (days - daysInMonth year month) (Nat.le_add_left 1 month)
        (by omega) (by omega)
      rw [hnext] at hrest
      obtain ⟨h1, h2, h3, h4, h5⟩ := hrest
      exact ⟨h1, h2, h3, h4, by omega⟩

/-- The days before a year in terms of its place in the cycles. -/
theorem daysBeforeYear_cycles {a b c d : Nat} (hb : b ≤ 3) (hc : c ≤ 24) (hd : d ≤ 3) :
    daysBeforeYear (a * 400 + b * 100 + c * 4 + d + 1)
      = a * 146097 + b * 36524 + c * 1461 + d * 365 := by
  have h4 : (a * 400 + b * 100 + c * 4 + d) / 4 = a * 100 + b * 25 + c := by omega
  have h100 : (a * 400 + b * 100 + c * 4 + d) / 100 = a * 4 + b := by omega
  have h400 : (a * 400 + b * 100 + c * 4 + d) / 400 = a := by omega
  rw [daysBeforeYear, Nat.add_sub_cancel, h4, h100, h400]
  omega

/-- The last year of a cycle of four is a leap year, but not the last one of the first three centuries. -/
theorem isLeap_cycles {a b c d : Nat} (hb : b ≤ 3) (hc : c ≤ 24) (hd : d ≤ 3) :
    isLeap (a * 400 + b * 100 + c * 4 + d + 1) = true ↔ d = 3 ∧ (c ≠ 24 ∨ b = 3) := by
  rw [isLeap_iff]
  omega

/-- The day falls into the year that the divisions find. -/
theorem ofDayNumber_eq (n : Nat) : ∃ year days, 1 ≤ year ∧ daysBeforeYear year + days = n ∧
    days < daysInYear year ∧
    ofDayNumber n = ⟨year, (monthAndDay year 12 1 days).1, (monthAndDay year 12 1 days).2⟩ := by
  have h4 : (n % 146097 - min (n % 146097 / 36524) 3 * 36524) / 1461 ≤ 24 := by omega
  refine ⟨_, _, Nat.le_add_left 1 _, ?_, ?_, rfl⟩
  · rw [daysBeforeYear_cycles (Nat.min_le_right _ 3) h4 (Nat.min_le_right _ 3)]
    omega
  · have hleap := isLeap_cycles (a := n / 146097) (Nat.min_le_right (n % 146097 / 36524) 3) h4
      (Nat.min_le_right
        ((n % 146097 - min (n % 146097 / 36524) 3 * 36524) % 1461 / 365) 3)
    rw [daysInYear]
    split
    · omega
    -- without its last day, the last year of a cycle is not left to the cycle's next year
    · next hnot =>
      rw [hleap] at hnot
      omega

theorem daysBeforeYear_lt_of_lt {year year' : Nat} (hpos : 1 ≤ year')
    (h : daysBeforeYear year < daysBeforeYear year') : year < year' := by
  refine Nat.lt_of_not_le fun hle ↦ ?_
  exact absurd h (Nat.not_lt.mpr (daysBeforeYear_le hpos hle))

/-- **Every day before the year 10000 is the day of a date of the calendar.** -/
theorem ofDayNumber_spec {n : Nat} (h : n < daysBeforeYear 10000) :
    (ofDayNumber n).isValid = true ∧ (ofDayNumber n).dayNumber = n := by
  obtain ⟨year, days, hyear, hsum, hdays, heq⟩ := ofDayNumber_eq n
  have hend : daysBeforeMonth year 1 + days < daysBeforeMonth year 13 := by
    rw [daysBeforeMonth_thirteen]
    simpa [daysBeforeMonth] using hdays
  obtain ⟨hmonth, hmonth', hday, hday', hplace⟩ :=
    monthAndDay_spec year 12 1 days (Nat.le_refl 1) rfl hend
  have hyear' : year < 10000 :=
    daysBeforeYear_lt_of_lt (by decide) (Nat.lt_of_le_of_lt (hsum ▸ Nat.le_add_right _ _) h)
  rw [heq]
  refine ⟨isValid_iff.mpr ⟨hyear, Nat.le_of_lt_succ hyear', hmonth, hmonth', hday, hday'⟩, ?_⟩
  rw [dayNumber, Nat.add_assoc, hplace, ← hsum]
  simp [daysBeforeMonth]

end FeatureAtlas.Date
