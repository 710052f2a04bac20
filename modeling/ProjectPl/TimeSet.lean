import ProjectPl.Lib.Calendar

/-!
`CTimeSet` of `_lib/util_time.cpp`. The zone has one offset and no daylight saving; the calendar of
the C library is a parameter, of which only the round trip of `_gmtime64_s` counts.
-/

namespace ProjectPl

open Calendar (Tm)

/-- `_gmtime64_s` and `_mkgmtime64`. -/
structure CalendarFunctions where
  gmtime : Int → Tm
  mkgmtime : Tm → Int
  mkgmtime_gmtime : ∀ time, mkgmtime (gmtime time) = time

namespace CalendarFunctions

variable (calendar : CalendarFunctions)

/-- `_localtime64_s` in a zone whose offset is what has to be added to get GMT. -/
def localtime (tzSec time : Int) : Tm := calendar.gmtime (time - tzSec)

/-- `_mktime64`, which reads the fields in local time. -/
def mktime (tzSec : Int) (tm : Tm) : Int := calendar.mkgmtime tm + tzSec

def civil : CalendarFunctions where
  gmtime := Calendar.gmtime
  mkgmtime := Calendar.timegm
  mkgmtime_gmtime := Calendar.timegm_gmtime

end CalendarFunctions

structure DateTime where
  year : Int
  month : Int
  day : Int
  hour : Int
  min : Int
  sec : Int

def DateTime.tm (date : DateTime) : Tm where
  year := date.year - 1900
  mon := date.month - 1
  mday := date.day
  hour := date.hour
  min := date.min
  sec := date.sec
  isdst := -1

structure CTimeSet where
  tzSec : Int := 0
  tGMT : Int := 0
  tLocalT : Int := 0
  tmGMT : Tm := {}
  tmLocalT : Tm := {}
  deriving DecidableEq

namespace CTimeSet

variable (calendar : CalendarFunctions)

def setTimeZone (time : CTimeSet) (tzSec : Int) : CTimeSet := { time with tzSec }

def setTimeNow (time : CTimeSet) (now : Int) : CTimeSet :=
  let tmLocalT := calendar.localtime time.tzSec now
  { time with
    tGMT := now, tmGMT := calendar.gmtime now, tmLocalT
    tLocalT := calendar.mkgmtime tmLocalT }

def setTime (time : CTimeSet) (tTime : Int) (bLocal : Bool) : CTimeSet :=
  if bLocal then
    { time with
      tGMT := tTime + time.tzSec
      tLocalT := tTime
      tmGMT := calendar.gmtime (tTime + time.tzSec)
      tmLocalT := calendar.gmtime tTime }
  else
    { time with
      tGMT := tTime
      tLocalT := tTime - time.tzSec
      tmGMT := calendar.gmtime tTime
      tmLocalT := calendar.gmtime (tTime - time.tzSec) }

def setTimeDate (time : CTimeSet) (date : DateTime) (bLocal : Bool) : CTimeSet :=
  let tGMT :=
    if bLocal then calendar.mkgmtime date.tm + time.tzSec
    else calendar.mktime time.tzSec date.tm
  let tmLocalT := calendar.localtime time.tzSec tGMT
  { time with
    tGMT, tmGMT := calendar.gmtime tGMT, tmLocalT
    tLocalT := calendar.mkgmtime tmLocalT }

/-- `SetTime` of an `initializer_list`. The loop reads and writes as many elements as there are,
and at least six; any other number than six is undefined. -/
def setTimeList (time : CTimeSet) (yyMMddhhmmss : List Int) (bLocal : Bool) : Option CTimeSet :=
  match yyMMddhhmmss with
  | [year, month, day, hour, min, sec] =>
      some (setTimeDate calendar time { year, month, day, hour, min, sec } bLocal)
  | _ => none

def setTimeStamp (time : CTimeSet) (stamp : DateTime) (bLocal : Bool) : Option CTimeSet :=
  setTimeList calendar time
    [stamp.year, stamp.month, stamp.day, stamp.hour, stamp.min, stamp.sec] bLocal

def getTime (time : CTimeSet) (bLocal : Bool) : Int :=
  if bLocal then time.tLocalT else time.tGMT

/-! The constructors, in a zone with this offset. -/

def ofTime (tzSec tTime : Int) (bLocal : Bool) : CTimeSet :=
  setTime calendar (setTimeZone {} tzSec) tTime bLocal

def ofDate (tzSec : Int) (date : DateTime) (bLocal : Bool) : CTimeSet :=
  setTimeDate calendar (setTimeZone {} tzSec) date bLocal

inductive Assignment
  | now (now : Int)
  | time (tTime : Int) (bLocal : Bool)
  | date (date : DateTime) (bLocal : Bool)
  | list (yyMMddhhmmss : List Int) (bLocal : Bool)
  | stamp (stamp : DateTime) (bLocal : Bool)

def assign (time : CTimeSet) : Assignment → Option CTimeSet
  | .now now => some (setTimeNow calendar time now)
  | .time tTime bLocal => some (setTime calendar time tTime bLocal)
  | .date date bLocal => some (setTimeDate calendar time date bLocal)
  | .list yyMMddhhmmss bLocal => setTimeList calendar time yyMMddhhmmss bLocal
  | .stamp stamp bLocal => setTimeStamp calendar time stamp bLocal

/-- An object that a constructor has made and further `SetTime` may have changed. -/
inductive Built (tzSec : Int) : CTimeSet → Prop
  | construct {made : CTimeSet} (assignment : Assignment)
      (set : assign calendar (setTimeZone {} tzSec) assignment = some made) : Built tzSec made
  | assign {time next : CTimeSet} (built : Built tzSec time) (assignment : Assignment)
      (set : CTimeSet.assign calendar time assignment = some next) : Built tzSec next

/-- The four times of an object are one moment. -/
structure Consistent (tzSec : Int) (time : CTimeSet) : Prop where
  zone : time.tzSec = tzSec
  shifted : time.tLocalT = time.tGMT - tzSec
  gmt : time.tmGMT = calendar.gmtime time.tGMT
  localTime : time.tmLocalT = calendar.gmtime time.tLocalT

variable {calendar} {tzSec : Int} {time : CTimeSet}

theorem setTimeZone_tzSec (time : CTimeSet) (tzSec : Int) :
    (setTimeZone time tzSec).tzSec = tzSec := rfl

theorem setTimeNow_consistent (zone : time.tzSec = tzSec) (now : Int) :
    Consistent calendar tzSec (setTimeNow calendar time now) where
  zone := zone
  shifted := by rw [← zone]; exact calendar.mkgmtime_gmtime _
  gmt := rfl
  localTime := congrArg calendar.gmtime (calendar.mkgmtime_gmtime _).symm

theorem setTime_consistent (zone : time.tzSec = tzSec) (tTime : Int) (bLocal : Bool) :
    Consistent calendar tzSec (setTime calendar time tTime bLocal) := by
  subst zone
  cases bLocal with
  | true => exact ⟨rfl, (Int.add_sub_cancel ..).symm, rfl, rfl⟩
  | false => exact ⟨rfl, rfl, rfl, rfl⟩

theorem setTimeDate_consistent (zone : time.tzSec = tzSec) (date : DateTime) (bLocal : Bool) :
    Consistent calendar tzSec (setTimeDate calendar time date bLocal) where
  zone := zone
  shifted := by rw [← zone]; exact calendar.mkgmtime_gmtime _
  gmt := rfl
  localTime := congrArg calendar.gmtime (calendar.mkgmtime_gmtime _).symm

theorem assign_consistent {next : CTimeSet} {assignment : Assignment}
    (zone : time.tzSec = tzSec) (set : assign calendar time assignment = some next) :
    Consistent calendar tzSec next := by
  have listed {yyMMddhhmmss : List Int} {bLocal : Bool}
      (set : setTimeList calendar time yyMMddhhmmss bLocal = some next) :
      Consistent calendar tzSec next := by
    simp only [setTimeList] at set
    split at set
    · cases set
      exact setTimeDate_consistent zone _ bLocal
    · cases set
  cases assignment with
  | now now =>
      cases set
      exact setTimeNow_consistent zone now
  | time tTime bLocal =>
      cases set
      exact setTime_consistent zone tTime bLocal
  | date date bLocal =>
      cases set
      exact setTimeDate_consistent zone date bLocal
  | list yyMMddhhmmss bLocal => exact listed set
  | stamp stamp bLocal =>
      rw [assign, setTimeStamp] at set
      exact listed set

theorem Built.consistent (built : Built calendar tzSec time) : Consistent calendar tzSec time := by
  induction built with
  | construct assignment set => exact assign_consistent rfl set
  | assign built assignment set ih => exact assign_consistent ih.zone set

theorem Consistent.ext {other : CTimeSet} (one : Consistent calendar tzSec time)
    (two : Consistent calendar tzSec other) (same : time.tGMT = other.tGMT) : time = other := by
  have shifted : time.tLocalT = other.tLocalT := by rw [one.shifted, two.shifted, same]
  cases time
  cases other
  simp only [CTimeSet.mk.injEq]
  exact ⟨one.zone.trans two.zone.symm, same, shifted,
    one.gmt.trans ((congrArg _ same).trans two.gmt.symm),
    one.localTime.trans ((congrArg _ shifted).trans two.localTime.symm)⟩

theorem ofTime_consistent (tTime : Int) (bLocal : Bool) :
    Consistent calendar tzSec (ofTime calendar tzSec tTime bLocal) := by
  rw [ofTime]
  exact setTime_consistent (setTimeZone_tzSec {} tzSec) tTime bLocal

theorem ofDate_consistent (date : DateTime) (bLocal : Bool) :
    Consistent calendar tzSec (ofDate calendar tzSec date bLocal) := by
  rw [ofDate]
  exact setTimeDate_consistent (setTimeZone_tzSec {} tzSec) date bLocal

theorem ofTime_tGMT (tTime : Int) (bLocal : Bool) :
    (ofTime calendar tzSec tTime bLocal).tGMT = if bLocal then tTime + tzSec else tTime := by
  cases bLocal <;> rfl

theorem ofDate_tGMT (date : DateTime) (bLocal : Bool) :
    (ofDate calendar tzSec date bLocal).tGMT = calendar.mkgmtime date.tm + tzSec := by
  cases bLocal <;> rfl

/-- Both kinds of arguments make the same object when the date is read as local time; read as
GMT, the zone is added where it should not. -/
theorem ofDate_eq_ofTime_iff (date : DateTime) (bLocal : Bool) :
    ofDate calendar tzSec date bLocal =
        ofTime calendar tzSec (calendar.mkgmtime date.tm) bLocal ↔
      bLocal = true ∨ tzSec = 0 := by
  have moments : (ofDate calendar tzSec date bLocal).tGMT =
      (ofTime calendar tzSec (calendar.mkgmtime date.tm) bLocal).tGMT ↔
        bLocal = true ∨ tzSec = 0 := by
    rw [ofDate_tGMT, ofTime_tGMT]
    cases bLocal with
    | true => exact iff_of_true rfl (Or.inl rfl)
    | false =>
        rw [if_neg Bool.false_ne_true, or_iff_right Bool.false_ne_true]
        omega
  refine Iff.trans ⟨?_, (ofDate_consistent date bLocal).ext (ofTime_consistent _ bLocal)⟩ moments
  intro same
  rw [same]

theorem Built.rebuild (built : Built calendar tzSec time) (bLocal : Bool) :
    ofTime calendar tzSec (time.getTime bLocal) bLocal = time := by
  refine (ofTime_consistent _ bLocal).ext built.consistent ?_
  refine (ofTime_tGMT _ bLocal).trans ?_
  cases bLocal with
  | false => rfl
  | true => exact (congrArg (· + tzSec) built.consistent.shifted).trans (Int.sub_add_cancel ..)

/-- The constructors agree for local times, and for GMT in a zone without an offset; every object
is rebuilt from either of its times. -/
theorem constructors_agree_iff (calendar : CalendarFunctions) (tzSec : Int) (date : DateTime)
    (bLocal : Bool) :
    (ofDate calendar tzSec date bLocal =
        ofTime calendar tzSec (calendar.mkgmtime date.tm) bLocal ↔
      bLocal = true ∨ tzSec = 0) ∧
    ∀ time, Built calendar tzSec time →
      ofTime calendar tzSec (time.getTime false) false = time ∧
        ofTime calendar tzSec (time.getTime true) true = time :=
  ⟨ofDate_eq_ofTime_iff date bLocal, fun _ built => ⟨built.rebuild false, built.rebuild true⟩⟩

/-- 2025-02-14 09:00:00 in Korea, the date of the unit test, given as GMT. -/
theorem constructors_disagree :
    let date : DateTime := { year := 2025, month := 2, day := 14, hour := 9, min := 0, sec := 0 }
    CalendarFunctions.civil.mkgmtime date.tm = 1739523600 ∧
      ofDate .civil (-32400) date false ≠ ofTime .civil (-32400) 1739523600 false := by
  decide

end CTimeSet

end ProjectPl
