import IncrementalBuild.Proofs.Time.Calendar
import Mathlib.Data.Int.Init
import Mathlib.Tactic.IntervalCases

/-!
# The calendar, day by day

The proleptic Gregorian calendar goes from each date to the next: from a day of a month to the next
one, from the last day of a month to the first day of the next month, and from the last month of a
year to the first month of the next year.  A month always has the same number of days, but for
February, which has one more in a leap year.  The date of a number of days is the one that is
reached from the first of January 1970 by as many steps, on or back: `Date.Counted` says so without
any arithmetic, and `Date.counted_iff` that `Date.toDays` counts the steps, and `Date.ofDays` finds
the date.
-/

namespace IncrementalBuild.Date

/-! ### Months and the next day -/

/-- The years that have a leap day. -/
def IsLeap (year : Int) : Prop :=
  year % 4 = 0 ∧ (year % 100 = 0 → year % 400 = 0)

instance (year : Int) : Decidable (IsLeap year) :=
  inferInstanceAs (Decidable (year % 4 = 0 ∧ (year % 100 = 0 → year % 400 = 0)))

/-- The number of days in a month of a year. -/
def monthLength (year month : Int) : Int :=
  if month = 2 then
    if IsLeap year then 29 else 28
  else if month = 4 ∨ month = 6 ∨ month = 9 ∨ month = 11 then
    30
  else
    31

/-- A date of the calendar: the month is one of twelve, and it has the day. -/
structure IsValid (date : Date) : Prop where
  one_le_month : 1 ≤ date.month
  month_le : date.month ≤ 12
  one_le_day : 1 ≤ date.day
  day_le : date.day ≤ monthLength date.year date.month

/-- The day after a date. -/
def next (date : Date) : Date :=
  if date.day < monthLength date.year date.month then
    { date with day := date.day + 1 }
  else if date.month < 12 then
    ⟨date.year, date.month + 1, 1⟩
  else
    ⟨date.year + 1, 1, 1⟩

/-- A date is so many days after the first of January 1970, or before it if their number is
negative. -/
inductive Counted : Date → Int → Prop
  | epoch : Counted ⟨1970, 1, 1⟩ 0
  | later {date : Date} {days : Int} : Counted date days → Counted date.next (days + 1)
  | earlier {date : Date} {days : Int} :
    date.IsValid → Counted date.next days → Counted date (days - 1)

theorem monthLength_bounds (year month : Int) :
  28 ≤ monthLength year month ∧ monthLength year month ≤ 31
  := by
  unfold monthLength
  split
  · split <;> omega
  · split <;> omega

theorem IsValid.next {date : Date} (h : date.IsValid) :
  date.next.IsValid
  := by
  obtain ⟨hmonth, hmonth', hday, hday'⟩ := h
  unfold Date.next
  split
  · next hlt =>
    constructor <;> simp only <;> omega
  · split
    · have hlength := monthLength_bounds date.year (date.month + 1)
      constructor <;> simp only <;> omega
    · have hlength := monthLength_bounds (date.year + 1) 1
      constructor <;> simp only <;> omega

/-! ### Dates in a year that begins in March -/

/-- The year, counted from March, in which a date lies. -/
def yearFromMarch (date : Date) : Int :=
  if date.month ≤ 2 then date.year - 1 else date.year

/-- The number of months since March. -/
def monthFromMarch (date : Date) : Int :=
  if date.month ≤ 2 then date.month + 9 else date.month - 3

/-- The number of days since the first of March. -/
def dayFromMarch (date : Date) : Int :=
  daysBeforeMonth date.monthFromMarch + date.day - 1

theorem toDays_eq_fromMarch (date : Date) :
  date.toDays = daysToMarch date.yearFromMarch + date.dayFromMarch
  := toDays_eq date

/-- A year that begins in March is longer by a day if February, its last month, has a leap day. -/
theorem daysToMarch_add_one (year : Int) :
  daysToMarch (year + 1) = daysToMarch year + 337 + monthLength (year + 1) 2
  := by
  rw [daysToMarch_eq, daysToMarch_eq, monthLength, if_pos rfl]
  split <;> unfold IsLeap at * <;> omega

theorem daysToMarch_mono {year year' : Int} (h : year ≤ year') :
  daysToMarch year ≤ daysToMarch year'
  := by
  rcases Int.le_iff_eq_or_lt.1 h with rfl | hlt
  · exact Int.le_refl _
  · have := daysToMarch_add_le hlt
    omega

theorem marchMonth_eq_iff {day month : Int} :
  marchMonth day = month ↔ daysBeforeMonth month ≤ day ∧ day < daysBeforeMonth (month + 1)
  := by
  unfold marchMonth daysBeforeMonth
  omega

section

variable {date : Date}

/-- A month begins after the days of the month before it. -/
theorem daysBeforeMonth_add_one (hle : 1 ≤ date.month) (hle' : date.month ≤ 12)
    (hnot : date.month ≠ 2) :
  daysBeforeMonth (date.monthFromMarch + 1)
    = daysBeforeMonth date.monthFromMarch + monthLength date.year date.month
  := by
  obtain ⟨year, month, day⟩ := date
  simp only at hle hle' hnot
  interval_cases month <;> first | rfl | contradiction

/-- February is the last month of a year that begins in March. -/
theorem monthFromMarch_bounds (hle : 1 ≤ date.month) (hle' : date.month ≤ 12) :
  0 ≤ date.monthFromMarch ∧ (date.month = 2 ∨ date.monthFromMarch ≤ 10)
  := by
  unfold monthFromMarch
  split <;> omega

theorem dayFromMarch_of_february (hmonth : date.month = 2) :
  date.yearFromMarch = date.year - 1 ∧ date.monthFromMarch = 11 ∧ date.dayFromMarch = 336 + date.day
  := by
  have hearly : date.month ≤ 2 := by omega
  rw [dayFromMarch, yearFromMarch, monthFromMarch, if_pos hearly, if_pos hearly, hmonth]
  have hbefore : daysBeforeMonth (2 + 9) = 337 := by decide
  omega

/-- A day of a year that begins in March is one of the days that the year has. -/
theorem dayFromMarch_bounds (h : date.IsValid) :
  0 ≤ date.dayFromMarch ∧ date.dayFromMarch < 337 + monthLength (date.yearFromMarch + 1) 2
  := by
  have hlength := monthLength_bounds (date.yearFromMarch + 1) 2
  obtain ⟨hnonneg, hmonth | hmonth⟩ := monthFromMarch_bounds h.one_le_month h.month_le
  · obtain ⟨hyear, -, hday⟩ := dayFromMarch_of_february hmonth
    have hle := h.day_le
    have hone := h.one_le_day
    rw [hmonth] at hle
    rw [hyear, hday, Int.sub_add_cancel]
    omega
  · have hnot : date.month ≠ 2 := by
      unfold monthFromMarch at hmonth
      split at hmonth <;> omega
    have hnext := daysBeforeMonth_add_one h.one_le_month h.month_le hnot
    have hone := h.one_le_day
    have hle := h.day_le
    unfold dayFromMarch
    unfold daysBeforeMonth at *
    omega

theorem marchMonth_dayFromMarch (h : date.IsValid) :
  marchMonth date.dayFromMarch = date.monthFromMarch
  := by
  apply marchMonth_eq_iff.2
  have hone := h.one_le_day
  have hle := h.day_le
  by_cases hmonth : date.month = 2
  · obtain ⟨-, hfromMarch, hday⟩ := dayFromMarch_of_february hmonth
    have hlength := monthLength_bounds date.year date.month
    have hbounds : daysBeforeMonth 11 = 337 ∧ daysBeforeMonth (11 + 1) = 367 := by decide
    rw [hfromMarch, hday]
    rw [hmonth, monthLength, if_pos rfl] at hle
    split at hle <;> omega
  · rw [daysBeforeMonth_add_one h.one_le_month h.month_le hmonth, dayFromMarch]
    omega

end

/-! ### The date of a number of days -/

/-- No year goes on after the last of February. -/
theorem sinceMarch_lt (days : Int) :
  sinceMarch days < 337 + monthLength (marchYear days + 1) 2
  := by
  obtain ⟨century, quad, year, rest, h⟩ :=
    exists_cycles (Int.emod_nonneg (days + daysToEpoch) (b := daysPerEra) (by decide))
      (Int.emod_lt_of_pos _ (by decide))
  have hbefore := daysBeforeYear_eq century ⟨h.quad_nonneg, h.quad_le⟩ ⟨h.year_nonneg, h.year_le⟩
  rw [marchYear, sinceMarch, yearOfEra_eq h, hbefore, monthLength, if_pos rfl]
  obtain ⟨hc0, hc3, hq0, hq24, hy0, hy3, hr0, hr, hsum⟩ := h
  split
  · omega
  · next hleap =>
    unfold IsLeap at hleap
    omega

/-- There is one way only to count days by a year and the days since its first of March. -/
theorem marchYear_eq {days year rest : Int} (hsum : daysToMarch year + rest = days)
    (hnonneg : 0 ≤ rest) (hlt : rest < 337 + monthLength (year + 1) 2) :
  marchYear days = year ∧ sinceMarch days = rest
  := by
  have hdays := daysToMarch_marchYear days
  have hsince := (sinceMarch_bounds days).1
  have hsince' := sinceMarch_lt days
  have hlength := daysToMarch_add_one year
  have hlength' := daysToMarch_add_one (marchYear days)
  rcases Int.lt_trichotomy (marchYear days) year with hlt | heq | hgt
  · have hmono := daysToMarch_mono (Int.add_one_le_of_lt hlt)
    omega
  · rw [heq] at hdays
    omega
  · have hmono := daysToMarch_mono (Int.add_one_le_of_lt hgt)
    omega

/-- The date of the days that are counted for a valid date is that date. -/
theorem ofDays_toDays {date : Date} (h : date.IsValid) :
  ofDays date.toDays = date
  := by
  have hbounds := dayFromMarch_bounds h
  obtain ⟨hyear, hsince⟩ := marchYear_eq (toDays_eq_fromMarch date).symm hbounds.1 hbounds.2
  have hone := h.one_le_month
  have hle := h.month_le
  rw [ofDays_eq, hsince, marchMonth_dayFromMarch h, hyear, dayFromMarch]
  unfold monthFromMarch yearFromMarch
  obtain ⟨year, month, day⟩ := date
  simp only at hone hle
  simp only [Date.mk.injEq]
  split <;> split <;> omega

theorem fromMarch_ofDays (days : Int) :
  (ofDays days).yearFromMarch = marchYear days
    ∧ (ofDays days).monthFromMarch = marchMonth (sinceMarch days)
    ∧ (ofDays days).dayFromMarch = sinceMarch days
  := by
  obtain ⟨hmonth, -, -⟩ := marchMonth_bounds (sinceMarch_bounds days)
  have hyear : (ofDays days).yearFromMarch = marchYear days := by
    rw [yearFromMarch, ofDays_eq]
    simp only
    split <;> split <;> omega
  have hfromMarch : (ofDays days).monthFromMarch = marchMonth (sinceMarch days) := by
    rw [monthFromMarch, ofDays_eq]
    simp only
    split <;> split <;> omega
  refine ⟨hyear, hfromMarch, ?_⟩
  rw [dayFromMarch, hfromMarch, ofDays_eq]
  simp only
  omega

/-- The date of a number of days is one that the calendar has. -/
theorem isValid_ofDays (days : Int) :
  (ofDays days).IsValid
  := by
  obtain ⟨⟨hmonth, hmonth'⟩, hday, -⟩ := ofDays_bounds days
  obtain ⟨hyear, hfromMarch, hsince⟩ := fromMarch_ofDays days
  refine ⟨hmonth, hmonth', hday, ?_⟩
  by_cases hfebruary : (ofDays days).month = 2
  · have hlt := sinceMarch_lt days
    obtain ⟨hbefore, -, hdayOf⟩ := dayFromMarch_of_february hfebruary
    rw [← hyear, hbefore, Int.sub_add_cancel] at hlt
    rw [hfebruary]
    omega
  · obtain ⟨-, hlt⟩ := marchMonth_eq_iff.1 hfromMarch.symm
    rw [daysBeforeMonth_add_one hmonth hmonth' hfebruary, ← hsince, dayFromMarch] at hlt
    omega

/-- After the last day of a month that is not February comes the first of the next month from
March. -/
theorem fromMarch_next {date : Date} (h : date.IsValid)
    (hlast : ¬ date.day < monthLength date.year date.month) (hnot : date.month ≠ 2) :
  date.next.yearFromMarch = date.yearFromMarch
    ∧ date.next.monthFromMarch = date.monthFromMarch + 1 ∧ date.next.day = 1
  := by
  have hone := h.one_le_month
  have hle := h.month_le
  rw [next, if_neg hlast]
  unfold yearFromMarch monthFromMarch
  split
  · simp only [and_true]
    constructor
    · split <;> split <;> omega
    · split <;> split <;> omega
  · have hmonth : date.month = 12 := by omega
    simp [hmonth]

/-- The next date is a day later. -/
theorem toDays_next {date : Date} (h : date.IsValid) :
  date.next.toDays = date.toDays + 1
  := by
  have hday := h.day_le
  rw [toDays_eq_fromMarch, toDays_eq_fromMarch]
  by_cases hlast : date.day < monthLength date.year date.month
  · rw [next, if_pos hlast]
    simp only [dayFromMarch, monthFromMarch, yearFromMarch]
    omega
  · by_cases hfebruary : date.month = 2
    · have hlength := daysToMarch_add_one (date.year - 1)
      obtain ⟨hyear, -, hdayOf⟩ := dayFromMarch_of_february hfebruary
      rw [hfebruary] at hday hlast
      have hnext : date.next = ⟨date.year, 3, 1⟩ := by
        rw [next, hfebruary, if_neg hlast]
        rfl
      have hfirst : Date.dayFromMarch ⟨date.year, 3, 1⟩ = 0 := rfl
      have hsame : Date.yearFromMarch ⟨date.year, 3, 1⟩ = date.year := rfl
      rw [Int.sub_add_cancel] at hlength
      rw [hnext, hfirst, hsame, hyear, hdayOf]
      omega
    · obtain ⟨hyear, hmonth, hone⟩ := fromMarch_next h hlast hfebruary
      have hlength := daysBeforeMonth_add_one h.one_le_month h.month_le hfebruary
      rw [hyear, dayFromMarch, dayFromMarch, hmonth, hone, hlength]
      omega

theorem next_ofDays (days : Int) :
  (ofDays days).next = ofDays (days + 1)
  := by
  have h := isValid_ofDays days
  rw [← ofDays_toDays h.next, toDays_next h, toDays_ofDays]

/-! ### Counting days -/

theorem counted_ofDays (days : Int) :
  Counted (ofDays days) days
  := by
  induction days using Int.induction_on with
  | zero => exact .epoch
  | succ n ih =>
    rw [← next_ofDays]
    exact .later ih
  | pred n ih =>
    apply Counted.earlier (isValid_ofDays _)
    rw [next_ofDays, Int.sub_add_cancel]
    exact ih

/-- Going from date to date a valid date is reached after so many days as are counted for it, and
nothing else is reached. -/
theorem counted_iff {date : Date} {days : Int} :
  Counted date days ↔ date.IsValid ∧ date.toDays = days
  := by
  constructor
  · intro h
    induction h with
    | epoch => exact ⟨by constructor <;> decide, by decide⟩
    | later _ ih =>
      obtain ⟨hvalid, rfl⟩ := ih
      exact ⟨hvalid.next, toDays_next hvalid⟩
    | earlier hvalid _ ih =>
      obtain ⟨-, rfl⟩ := ih
      rw [toDays_next hvalid, Int.add_sub_cancel]
      exact ⟨hvalid, rfl⟩
  · rintro ⟨hvalid, rfl⟩
    have h := counted_ofDays date.toDays
    rw [ofDays_toDays hvalid] at h
    exact h

end IncrementalBuild.Date
