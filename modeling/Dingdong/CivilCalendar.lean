import Mathlib.Order.Lattice

/-!
The days of the Gregorian calendar, counted from 1 January 1970, and the broken-down time of a
time zone that is always the same distance from UTC. Years begin in March here, so that the
leap day is the last of its year.
-/

namespace CivilCalendar

structure Date where
  year : Int
  month : Int
  day : Int
  deriving DecidableEq

/-- The days of 400 years. -/
def eraDays : Int := 146097

/-- The days from 1 March of the year 0 to 1 January 1970. -/
def epoch : Int := 719468

/-- The days in March, April and so on before a month. -/
def monthStart (month : Int) : Int := (153 * month + 2) / 5

/-- The days before a year of its era. -/
def yearStart (year : Int) : Int := 365 * year + year / 4 - year / 100

/-- The date of a day. -/
def dateOf (days : Int) : Date :=
  let era := (days + epoch) / eraDays
  let ofEra := (days + epoch) % eraDays
  let century := min (ofEra / 36524) 3
  let ofCentury := ofEra - 36524 * century
  let quad := ofCentury / 1461
  let ofQuad := ofCentury - 1461 * quad
  let year := min (ofQuad / 365) 3
  let ofYear := ofQuad - 365 * year
  let month := (5 * ofYear + 2) / 153
  let marchYear := 400 * era + 100 * century + 4 * quad + year
  { year := if month < 10 then marchYear else marchYear + 1
    month := if month < 10 then month + 3 else month - 9
    day := ofYear - monthStart month + 1 }

/-- The day of a date. Months beyond December belong to a later year, days beyond the end of
the month to a later month. -/
def dayOf (date : Date) : Int :=
  let month := date.month - 1
  let calendarYear := date.year + month / 12
  let month := month % 12
  let marchYear := if month < 2 then calendarYear - 1 else calendarYear
  let marchMonth := if month < 2 then month + 10 else month - 2
  marchYear / 400 * eraDays + yearStart (marchYear % 400) + monthStart marchMonth + (date.day - 1) -
    epoch

/-- A year of an era by its century, its four years in the century and its place in these. -/
theorem yearStart_parts {century quad year : Int} (positive : 0 ≤ quad) (few : quad ≤ 24)
    (first : 0 ≤ year) (last : year ≤ 3) :
    yearStart (100 * century + 4 * quad + year) = 36524 * century + 1461 * quad + 365 * year := by
  have hundreds : (100 * century + 4 * quad + year) / 100 = century := by omega
  have fours : (100 * century + 4 * quad + year) / 4 = 25 * century + quad := by omega
  rw [yearStart, hundreds, fours]
  omega

/-- A year and a month that begin in March, read back from the calendar's. -/
theorem dayOf_march {era year month day : Int} (first : 0 ≤ year) (last : year ≤ 399)
    (march : 0 ≤ month) (february : month ≤ 11) :
    dayOf { year := if month < 10 then 400 * era + year else 400 * era + year + 1
            month := if month < 10 then month + 3 else month - 9
            day := day } =
      era * eraDays + yearStart year + monthStart month + (day - 1) - epoch := by
  have whole : (400 * era + year) / 400 = era := by omega
  have rest : (400 * era + year) % 400 = year := by omega
  simp only [dayOf]
  by_cases early : month < 10
  · have within : (month + 3 - 1) / 12 = 0 := by omega
    have same : (month + 3 - 1) % 12 = month + 2 := by omega
    have late : ¬ month + 2 < 2 := by omega
    rw [if_pos early, if_pos early, within, same, if_neg late, if_neg late, Int.add_zero, whole, rest,
      Int.add_sub_cancel]
  · have within : (month - 9 - 1) / 12 = 0 := by omega
    have same : (month - 9 - 1) % 12 = month - 10 := by omega
    have january : month - 10 < 2 := by omega
    rw [if_neg early, if_neg early, within, same, if_pos january, if_pos january, Int.add_zero,
      Int.add_sub_cancel, whole, rest, Int.sub_add_cancel]

/-- A day as its era, its March year in the era and its day in that year. -/
theorem dateOf_march (days : Int) : ∃ era year ofYear month, 0 ≤ year ∧ year ≤ 399 ∧ 0 ≤ ofYear ∧
    month = (5 * ofYear + 2) / 153 ∧ 0 ≤ month ∧ month ≤ 11 ∧
    days + epoch = era * eraDays + yearStart year + ofYear ∧
    dateOf days =
      { year := if month < 10 then 400 * era + year else 400 * era + year + 1
        month := if month < 10 then month + 3 else month - 9
        day := ofYear - monthStart month + 1 } := by
  have whole : (days + epoch) / eraDays * eraDays + (days + epoch) % eraDays = days + epoch :=
    Int.ediv_mul_add_emod _ _
  have first : 0 ≤ (days + epoch) % eraDays := Int.emod_nonneg _ (by decide)
  have last : (days + epoch) % eraDays < 146097 := Int.emod_lt_of_pos _ (by decide)
  rw [dateOf]
  generalize (days + epoch) / eraDays = era at whole ⊢
  generalize (days + epoch) % eraDays = ofEra at whole first last ⊢
  have century : 0 ≤ min (ofEra / 36524) 3 ∧ min (ofEra / 36524) 3 ≤ 3 ∧
      36524 * min (ofEra / 36524) 3 ≤ ofEra ∧ ofEra - 36524 * min (ofEra / 36524) 3 ≤ 36524 := by
    omega
  generalize min (ofEra / 36524) 3 = hundreds at century ⊢
  generalize isCentury : ofEra - 36524 * hundreds = ofCentury at century ⊢
  have quad : 0 ≤ ofCentury / 1461 ∧ ofCentury / 1461 ≤ 24 ∧
      0 ≤ ofCentury - 1461 * (ofCentury / 1461) ∧
      ofCentury - 1461 * (ofCentury / 1461) ≤ 1460 := by omega
  generalize ofCentury / 1461 = fours at quad ⊢
  generalize isQuad : ofCentury - 1461 * fours = ofQuad at quad ⊢
  have year : 0 ≤ min (ofQuad / 365) 3 ∧ min (ofQuad / 365) 3 ≤ 3 ∧
      0 ≤ ofQuad - 365 * min (ofQuad / 365) 3 ∧ ofQuad - 365 * min (ofQuad / 365) 3 ≤ 365 := by omega
  generalize min (ofQuad / 365) 3 = ones at year ⊢
  generalize isYear : ofQuad - 365 * ones = ofYear at year ⊢
  have month : 0 ≤ (5 * ofYear + 2) / 153 ∧ (5 * ofYear + 2) / 153 ≤ 11 := by omega
  have parts := @yearStart_parts hundreds fours ones quad.1 quad.2.1 year.1 year.2.1
  have together : 400 * era + 100 * hundreds + 4 * fours + ones =
      400 * era + (100 * hundreds + 4 * fours + ones) := by omega
  refine ⟨era, 100 * hundreds + 4 * fours + ones, ofYear, _, by omega, by omega, year.2.2.1, rfl,
    month.1, month.2, ?_, by rw [together]⟩
  rw [parts]
  omega

/-- The date of a day leads back to it. -/
theorem dayOf_dateOf (days : Int) : dayOf (dateOf days) = days := by
  obtain ⟨era, year, ofYear, month, first, last, _, _, march, february, sum, date⟩ :=
    dateOf_march days
  rw [date, dayOf_march first last march february]
  omega

theorem dateOf_bounds (days : Int) :
    1 ≤ (dateOf days).month ∧ (dateOf days).month ≤ 12 ∧ 1 ≤ (dateOf days).day := by
  obtain ⟨era, year, ofYear, month, _, _, early, isMonth, march, february, _, date⟩ :=
    dateOf_march days
  rw [date]
  simp only [monthStart]
  split_ifs <;> omega

/-- The fields of a broken-down time, months from 0 and years from 1900. -/
structure Tm where
  sec : Int
  min : Int
  hour : Int
  mday : Int
  mon : Int
  year : Int
  deriving DecidableEq

/-- The time of a clock that is `offset` seconds ahead of UTC. -/
def localtime (offset time : Int) : Tm :=
  let date := dateOf ((time + offset) / 86400)
  let rest := (time + offset) % 86400
  { sec := rest % 60
    min := rest / 60 % 60
    hour := rest / 3600
    mday := date.day
    mon := date.month - 1
    year := date.year - 1900 }

/-- The time at which the clock shows the fields. -/
def mktime (offset : Int) (tm : Tm) : Int :=
  dayOf { year := tm.year + 1900, month := tm.mon + 1, day := tm.mday } * 86400 +
    tm.hour * 3600 + tm.min * 60 + tm.sec - offset

/-- The last midnight before a time. -/
def midnight (offset time : Int) : Int := (time + offset) / 86400 * 86400 - offset

section Clock

variable (offset time : Int)

/-- The day's first second, from its date. -/
theorem mktime_midnight :
    mktime offset { localtime offset time with hour := 0, min := 0, sec := 0 } =
      midnight offset time := by
  have date : dayOf { year := (localtime offset time).year + 1900
                      month := (localtime offset time).mon + 1
                      day := (localtime offset time).mday } = (time + offset) / 86400 := by
    simp only [localtime, Int.sub_add_cancel]
    exact dayOf_dateOf _
  simp only [mktime, date, midnight]
  omega

/-- Months are 0 to 11, and days start with 1. -/
theorem localtime_date : 0 ≤ (localtime offset time).mon ∧ (localtime offset time).mon ≤ 11 ∧
    1 ≤ (localtime offset time).mday := by
  have date := dateOf_bounds ((time + offset) / 86400)
  simp only [localtime]
  omega

/-- The times of a day are the 86400 seconds from its midnight on. -/
theorem midnight_eq_iff {date : Int} (aligned : midnight offset date = date) :
    midnight offset time = date ↔ date ≤ time ∧ time < date + 86400 := by
  rw [midnight] at aligned ⊢
  omega

end Clock

end CivilCalendar
