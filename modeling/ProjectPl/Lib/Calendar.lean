import Mathlib

/-!
The calendar of the C library: seconds since 1970-01-01 00:00:00 and broken-down times. A year of
the computation starts in March, so that the leap day is its last.
-/

namespace Calendar

/-- `struct tm`. -/
structure Tm where
  sec : Int := 0
  min : Int := 0
  hour : Int := 0
  mday : Int := 0
  mon : Int := 0
  year : Int := 0
  wday : Int := 0
  yday : Int := 0
  isdst : Int := 0
  deriving DecidableEq, Repr

structure Date where
  year : Int
  month : Int
  day : Int

def daysOfDate (date : Date) : Int :=
  let year := if date.month ≤ 2 then date.year - 1 else date.year
  let month := if date.month ≤ 2 then date.month + 9 else date.month - 3
  let yearOfEra := year % 400
  year / 400 * 146097 + (yearOfEra * 365 + yearOfEra / 4 - yearOfEra / 100) +
    ((153 * month + 2) / 5 + date.day - 1) - 719468

def dateOfDays (days : Int) : Date :=
  let era := (days + 719468) / 146097
  let dayOfEra := (days + 719468) % 146097
  let century := min (dayOfEra / 36524) 3
  let dayOfCentury := dayOfEra - century * 36524
  let cycle := dayOfCentury / 1461
  let dayOfCycle := dayOfCentury % 1461
  let yearOfCycle := min (dayOfCycle / 365) 3
  let dayOfYear := dayOfCycle - yearOfCycle * 365
  let month := (5 * dayOfYear + 2) / 153
  let year := era * 400 + century * 100 + cycle * 4 + yearOfCycle
  { year := if month < 10 then year else year + 1
    month := if month < 10 then month + 3 else month - 9
    day := dayOfYear - (153 * month + 2) / 5 + 1 }

theorem daysOfDate_dateOfDays (days : Int) : daysOfDate (dateOfDays days) = days := by
  rw [dateOfDays]
  generalize eraEq : (days + 719468) / 146097 = era
  generalize dayOfEraEq : (days + 719468) % 146097 = dayOfEra
  have total : days = era * 146097 + dayOfEra - 719468 := by omega
  have eraBounds : 0 ≤ dayOfEra ∧ dayOfEra < 146097 := by omega
  subst total
  clear eraEq dayOfEraEq
  generalize centuryEq : min (dayOfEra / 36524) 3 = century
  generalize dayOfCenturyEq : dayOfEra - century * 36524 = dayOfCentury
  have centuryBounds : 0 ≤ century ∧ century ≤ 3 ∧ 0 ≤ dayOfCentury ∧ dayOfCentury ≤ 36524 := by
    omega
  obtain rfl : dayOfEra = century * 36524 + dayOfCentury := by omega
  clear centuryEq dayOfCenturyEq eraBounds
  generalize cycleEq : dayOfCentury / 1461 = cycle
  generalize dayOfCycleEq : dayOfCentury % 1461 = dayOfCycle
  have cycleBounds : 0 ≤ cycle ∧ cycle ≤ 24 ∧ 0 ≤ dayOfCycle ∧ dayOfCycle < 1461 := by omega
  obtain rfl : dayOfCentury = cycle * 1461 + dayOfCycle := by omega
  clear cycleEq dayOfCycleEq
  generalize yearEq : min (dayOfCycle / 365) 3 = yearOfCycle
  generalize dayOfYearEq : dayOfCycle - yearOfCycle * 365 = dayOfYear
  have yearBounds : 0 ≤ yearOfCycle ∧ yearOfCycle ≤ 3 ∧ 0 ≤ dayOfYear ∧ dayOfYear ≤ 365 := by
    omega
  obtain rfl : dayOfCycle = yearOfCycle * 365 + dayOfYear := by omega
  clear yearEq dayOfYearEq
  generalize monthEq : (5 * dayOfYear + 2) / 153 = month
  have monthBounds : 0 ≤ month ∧ month ≤ 11 := by omega
  have year : (era * 400 + century * 100 + cycle * 4 + yearOfCycle) / 400 = era ∧
      (era * 400 + century * 100 + cycle * 4 + yearOfCycle) % 400 =
        century * 100 + cycle * 4 + yearOfCycle := by omega
  have leaps : (century * 100 + cycle * 4 + yearOfCycle) / 4 = century * 25 + cycle ∧
      (century * 100 + cycle * 4 + yearOfCycle) / 100 = century := by omega
  by_cases early : month < 10
  · have late : ¬month + 3 ≤ 2 := by omega
    simp only [daysOfDate, if_pos early, if_neg late, year, leaps, Int.add_sub_cancel]
    omega
  · have first : month - 9 ≤ 2 := by omega
    simp only [daysOfDate, if_neg early, if_pos first, Int.add_sub_cancel, Int.sub_add_cancel,
      year, leaps]
    omega

def gmtime (time : Int) : Tm :=
  let days := time / 86400
  let second := time % 86400
  let date := dateOfDays days
  { sec := second % 60
    min := second / 60 % 60
    hour := second / 3600
    mday := date.day
    mon := date.month - 1
    year := date.year - 1900
    wday := (days + 4) % 7
    yday := days - daysOfDate { year := date.year, month := 1, day := 1 } }

/-- The fields after `yday` and `wday` are not read. -/
def timegm (tm : Tm) : Int :=
  daysOfDate { year := tm.year + 1900, month := tm.mon + 1, day := tm.mday } * 86400 +
    tm.hour * 3600 + tm.min * 60 + tm.sec

theorem timegm_gmtime (time : Int) : timegm (gmtime time) = time := by
  have date := daysOfDate_dateOfDays (time / 86400)
  simp only [timegm, gmtime, Int.sub_add_cancel, date]
  omega

example : gmtime 951782400 = { mday := 29, mon := 1, year := 100, wday := 2, yday := 59 } := by
  decide

end Calendar
