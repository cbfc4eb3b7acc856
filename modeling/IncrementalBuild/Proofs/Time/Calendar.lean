import IncrementalBuild.Time.Display

/-!
# Days and dates

`Date.ofDays` finds the date of which `Date.toDays` counts the days, for every number of days
before or after the beginning of 1970, and so for every number of seconds.  The years are counted
from March, so that a leap day is the last day of its year.  An era of four hundred years has
centuries of 36524 days, these have spans of four years of 1461 days, and these have years of 365
days; the last day of an era and the last day of four years, if there is one, are left over.

The date of a number of seconds lies in a year of at most four digits, or minus four digits, just
in case the number lies between two bounds.
-/

namespace IncrementalBuild

namespace Date

/-! ### The year of an era -/

/-- The year of an era in which a day of the era lies. -/
def yearOfEra (day : Int) : Int :=
  (day - day / 1460 + day / 36524 - day / 146096) / 365

/-- A day of an era, by its century, its four years and its year, and the days before it in that
year. -/
structure Cycles (day century quad year rest : Int) : Prop where
  century_nonneg : 0 ≤ century
  century_le : century ≤ 3
  quad_nonneg : 0 ≤ quad
  quad_le : quad ≤ 24
  year_nonneg : 0 ≤ year
  year_le : year ≤ 3
  rest_nonneg : 0 ≤ rest
  rest_le : rest ≤ 364 ∨ rest = 365 ∧ year = 3 ∧ (quad < 24 ∨ century = 3)
  sum : 36524 * century + 1461 * quad + 365 * year + rest = day

theorem exists_cycles {day : Int} (hnonneg : 0 ≤ day) (hlt : day < daysPerEra) :
  ∃ century quad year rest, Cycles day century quad year rest
  := by
  unfold daysPerEra at hlt
  obtain ⟨century, inCentury, hsum, hcentury, hin⟩ : ∃ century inCentury,
      36524 * century + inCentury = day ∧ (0 ≤ century ∧ century ≤ 3) ∧ 0 ≤ inCentury ∧
        (inCentury ≤ 36523 ∨ inCentury = 36524 ∧ century = 3) :=
    ⟨min (day / 36524) 3, day - 36524 * min (day / 36524) 3, by omega⟩
  obtain ⟨quad, inQuad, hquadSum, hquad, hinQuad⟩ : ∃ quad inQuad,
      1461 * quad + inQuad = inCentury ∧ (0 ≤ quad ∧ quad ≤ 24) ∧ 0 ≤ inQuad ∧
        (inQuad ≤ 1459 ∨ inQuad = 1460 ∧ (quad < 24 ∨ century = 3)) :=
    ⟨inCentury / 1461, inCentury % 1461, by omega⟩
  obtain ⟨year, rest, hyearSum, hyear, hrest⟩ : ∃ year rest,
      365 * year + rest = inQuad ∧ (0 ≤ year ∧ year ≤ 3) ∧ 0 ≤ rest ∧
        (rest ≤ 364 ∨ rest = 365 ∧ year = 3 ∧ inQuad = 1460) :=
    ⟨min (inQuad / 365) 3, inQuad - 365 * min (inQuad / 365) 3, by omega⟩
  exact ⟨century, quad, year, rest, hcentury.1, hcentury.2, hquad.1, hquad.2, hyear.1, hyear.2,
    hrest.1, by omega, by omega⟩

/-- The century of a day: the last day of an era makes up no fifth one. -/
theorem century_eq {century inCentury : Int} (hcentury : 0 ≤ century ∧ century ≤ 3)
    (hnonneg : 0 ≤ inCentury) (hle : inCentury ≤ 36523 ∨ inCentury = 36524 ∧ century = 3) :
  (36524 * century + inCentury) / 36524 - (36524 * century + inCentury) / 146096 = century
  := by omega

/-- Of 1460 days one is taken for a leap day, one more in a century and one less in an era.  By
this count a leap day comes a few days early, but not in another year than it should. -/
theorem yearOfEra_eq {day century quad year rest : Int} (h : Cycles day century quad year rest) :
  yearOfEra day = 100 * century + 4 * quad + year
  := by
  obtain ⟨hc0, hc3, hq0, hq24, hy0, hy3, hr0, hr, hsum⟩ := h
  obtain ⟨early, hearly⟩ : ∃ early, early = (24 * century + quad + 365 * year + rest) / 1460 :=
    ⟨_, rfl⟩
  have hquads : day / 1460 = 25 * century + quad + early := by omega
  have hwithin : 0 ≤ rest - early ∧ rest - early ≤ 364 := by omega
  have hcentury := @century_eq century (1461 * quad + 365 * year + rest) ⟨hc0, hc3⟩ (by omega)
    (by omega)
  rw [← Int.add_assoc, ← Int.add_assoc, hsum] at hcentury
  have hsplit : day - day / 1460 + day / 36524 - day / 146096
      = 365 * (100 * century + 4 * quad + year) + (rest - early) := by omega
  rw [yearOfEra, hsplit]
  clear hearly hquads hcentury hsplit hr hsum
  omega

theorem daysBeforeYear_eq (century : Int) {quad year : Int} (hquad : 0 ≤ quad ∧ quad ≤ 24)
    (hyear : 0 ≤ year ∧ year ≤ 3) :
  daysBeforeYear (100 * century + 4 * quad + year)
    = 36524 * century + 1461 * quad + 365 * year
  := by
  unfold daysBeforeYear
  omega

/-- A day of an era lies in one of the years of the era, and no earlier than the first of March
and no later than the last of February. -/
theorem yearOfEra_bounds {day : Int} (hnonneg : 0 ≤ day) (hlt : day < daysPerEra) :
  (0 ≤ yearOfEra day ∧ yearOfEra day < 400) ∧ 0 ≤ day - daysBeforeYear (yearOfEra day) ∧
    day - daysBeforeYear (yearOfEra day) ≤ 365
  := by
  obtain ⟨century, quad, year, rest, h⟩ := exists_cycles hnonneg hlt
  have hbefore := daysBeforeYear_eq century ⟨h.quad_nonneg, h.quad_le⟩
    ⟨h.year_nonneg, h.year_le⟩
  rw [yearOfEra_eq h, hbefore]
  obtain ⟨hc0, hc3, hq0, hq24, hy0, hy3, hr0, hr, hsum⟩ := h
  omega

/-! ### The year of a number of days -/

/-- The number of days from the first of January 1970 to the first of March of a year. -/
def daysToMarch (year : Int) : Int :=
  year / 400 * daysPerEra + daysBeforeYear (year % 400) - daysToEpoch

/-- The year, counted from March, in which a number of days after the first of January 1970
ends. -/
def marchYear (days : Int) : Int :=
  (days + daysToEpoch) / daysPerEra * 400 + yearOfEra ((days + daysToEpoch) % daysPerEra)

/-- The number of days since the first of March. -/
def sinceMarch (days : Int) : Int :=
  let day := (days + daysToEpoch) % daysPerEra
  day - daysBeforeYear (yearOfEra day)

theorem daysToMarch_eq (year : Int) :
  daysToMarch year = 365 * year + year / 4 - year / 100 + year / 400 - daysToEpoch
  := by
  unfold daysToMarch daysBeforeYear daysPerEra
  omega

theorem daysToMarch_add_le {year year' : Int} (h : year < year') :
  daysToMarch year + 365 ≤ daysToMarch year'
  := by
  rw [daysToMarch_eq, daysToMarch_eq]
  omega

/-- What is counted for the year and what is counted in it make up the days. -/
theorem daysToMarch_marchYear (days : Int) :
  daysToMarch (marchYear days) + sinceMarch days = days
  := by
  have hday := yearOfEra_bounds (Int.emod_nonneg (days + daysToEpoch) (b := daysPerEra) (by decide))
    (Int.emod_lt_of_pos _ (by decide))
  have hera : marchYear days / 400 = (days + daysToEpoch) / daysPerEra := by
    unfold marchYear
    omega
  have hyear : marchYear days % 400 = yearOfEra ((days + daysToEpoch) % daysPerEra) := by
    unfold marchYear
    omega
  have hdivision := Int.mul_ediv_add_emod (days + daysToEpoch) daysPerEra
  rw [daysToMarch, hera, hyear, Int.mul_comm, sinceMarch]
  omega

theorem sinceMarch_bounds (days : Int) :
  0 ≤ sinceMarch days ∧ sinceMarch days ≤ 365
  := by
  have hday := yearOfEra_bounds (Int.emod_nonneg (days + daysToEpoch) (b := daysPerEra) (by decide))
    (Int.emod_lt_of_pos _ (by decide))
  exact hday.2

/-! ### The date of a number of days -/

/-- The month of a day of the year, counted from March. -/
def marchMonth (day : Int) : Int :=
  (5 * day + 2) / 153

theorem ofDays_eq (days : Int) :
  ofDays days =
    { year := if marchMonth (sinceMarch days) < 10 then marchYear days else marchYear days + 1
      month := if marchMonth (sinceMarch days) < 10 then marchMonth (sinceMarch days) + 3
        else marchMonth (sinceMarch days) - 9
      day := sinceMarch days - daysBeforeMonth (marchMonth (sinceMarch days)) + 1 }
  := rfl

theorem marchMonth_bounds {day : Int} (h : 0 ≤ day ∧ day ≤ 365) :
  (0 ≤ marchMonth day ∧ marchMonth day ≤ 11) ∧ (marchMonth day < 10 ↔ day < 306) ∧
    0 ≤ day - daysBeforeMonth (marchMonth day) ∧ day - daysBeforeMonth (marchMonth day) ≤ 30
  := by
  unfold daysBeforeMonth marchMonth
  omega

/-- The month of a date is one of twelve, and its day one of no more than 31. -/
theorem ofDays_bounds (days : Int) :
  (1 ≤ (ofDays days).month ∧ (ofDays days).month ≤ 12) ∧
    1 ≤ (ofDays days).day ∧ (ofDays days).day ≤ 31
  := by
  have hmonth := marchMonth_bounds (sinceMarch_bounds days)
  rw [ofDays_eq]
  simp only
  split <;> omega

theorem toDays_eq (date : Date) :
  date.toDays = daysToMarch (if date.month ≤ 2 then date.year - 1 else date.year)
    + (daysBeforeMonth (if date.month ≤ 2 then date.month + 9 else date.month - 3) + date.day - 1)
  := by
  simp only [toDays, daysToMarch]
  omega

/-- The days that are counted for the date of a number of days are that number. -/
theorem toDays_ofDays (days : Int) :
  (ofDays days).toDays = days
  := by
  obtain ⟨hmonth, -, -⟩ := marchMonth_bounds (sinceMarch_bounds days)
  have hdays := daysToMarch_marchYear days
  rw [toDays_eq, ofDays_eq]
  simp only
  by_cases hlate : marchMonth (sinceMarch days) < 10
  · have hnot : ¬ marchMonth (sinceMarch days) + 3 ≤ 2 := by omega
    rw [if_pos hlate, if_pos hlate, if_neg hnot, if_neg hnot, Int.add_sub_cancel]
    omega
  · have hearly : marchMonth (sinceMarch days) - 9 ≤ 2 := by omega
    rw [if_neg hlate, if_neg hlate, if_pos hearly, if_pos hearly, Int.add_sub_cancel,
      Int.sub_add_cancel]
    omega

/-- The year of a date is no later than a year if the days are fewer than there are before the
first of January of the next. -/
theorem year_ofDays_le_iff (days year : Int) :
  (ofDays days).year ≤ year ↔ days < daysToMarch year + 306
  := by
  obtain ⟨-, hmonth, -⟩ := marchMonth_bounds (sinceMarch_bounds days)
  have hsince := sinceMarch_bounds days
  have hdays := daysToMarch_marchYear days
  rw [ofDays_eq]
  simp only
  rcases Int.lt_trichotomy (marchYear days) year with hlt | rfl | hgt
  · have hle := daysToMarch_add_le hlt
    split <;> omega
  · split <;> omega
  · have hle := daysToMarch_add_le hgt
    split <;> omega

end Date

/-! ### Dates and times of the day -/

theorem Clock.ofSeconds_bounds (secs : Int) :
  (0 ≤ (Clock.ofSeconds secs).hour ∧ (Clock.ofSeconds secs).hour ≤ 23) ∧
    (0 ≤ (Clock.ofSeconds secs).minute ∧ (Clock.ofSeconds secs).minute ≤ 59) ∧
    0 ≤ (Clock.ofSeconds secs).second ∧ (Clock.ofSeconds secs).second ≤ 59
  := by
  simp only [Clock.ofSeconds, secondsPerDay]
  omega

/-- The moment of the date and the time of the day of a moment is that moment. -/
theorem secondsOf_ofSeconds (secs : Int) :
  secondsOf (Date.ofSeconds secs) (Clock.ofSeconds secs) = secs
  := by
  rw [secondsOf, Date.ofSeconds, Date.toDays_ofDays]
  simp only [Clock.ofSeconds, secondsPerDay]
  omega

/-- The years of four digits, with or without a minus sign, begin and end at these seconds. -/
theorem year_ofSeconds_bounds_iff {secs : Int} :
  -9999 ≤ (Date.ofSeconds secs).year ∧ (Date.ofSeconds secs).year ≤ 9999
    ↔ -377705116800 ≤ secs ∧ secs ≤ 253402300799
  := by
  have hfirst := Date.year_ofDays_le_iff (secs / secondsPerDay) (-10000)
  have hlast := Date.year_ofDays_le_iff (secs / secondsPerDay) 9999
  rw [Date.daysToMarch_eq] at hfirst hlast
  simp only [Date.ofSeconds, Date.daysToEpoch, secondsPerDay] at *
  omega

end IncrementalBuild
