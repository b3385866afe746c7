/-!
# Dates and timestamps

Days of the proleptic Gregorian calendar from year 1 to year 9999, and times of
day on them, with a distance to universal time or without one.
-/

namespace CategoryLint

/-- A day of the calendar. -/
structure Date where
  /-- The year, from 1 to 9999. -/
  year : Nat
  /-- The month, from 1 to 12. -/
  month : Nat
  /-- The day of the month, from 1. -/
  day : Nat
  deriving DecidableEq, Repr

/-- A time on a day. -/
structure Timestamp where
  /-- The day. -/
  date : Date
  /-- The hour, from 0 to 23. -/
  hour : Nat
  /-- The minute, from 0 to 59. -/
  minute : Nat
  /-- The second, from 0 to 59. -/
  second : Nat
  /-- The microsecond, from 0 to 999999. -/
  microsecond : Nat
  /-- How many minutes the clock is ahead of universal time, if that is known. -/
  offset : Option Int
  deriving DecidableEq, Repr

/-- A number in at least `width` digits. -/
def padNat (width n : Nat) : String :=
  let ds := Nat.toDigits 10 n
  String.ofList (List.replicate (width - ds.length) '0' ++ ds)

/-- Why a day or a time does not exist. -/
inductive TimeError where
  /-- The year is zero. -/
  | year (year : Nat)
  /-- No such month. -/
  | month
  /-- No such day in the month. -/
  | day
  /-- No such hour. -/
  | hour
  /-- No such minute. -/
  | minute
  /-- No such second. -/
  | second
  /-- The clock is a day or more apart from universal time. -/
  | offset (minutes : Int)
  deriving DecidableEq, Repr

/-- A time difference of whole minutes, as days and the seconds of a day. -/
def durationText (minutes : Int) : String :=
  let days := minutes / 1440
  let seconds := minutes % 1440 * 60
  let parts :=
    (if days = 0 then [] else [s!"days={days}"]) ++
      (if seconds = 0 then [] else [s!"seconds={seconds}"])
  "datetime.timedelta(" ++ (if parts = [] then "0" else ", ".intercalate parts) ++ ")"

namespace TimeError

/-- The wording of the error. -/
def message : TimeError → String
  | year y => s!"year {y} is out of range"
  | month => "month must be in 1..12"
  | day => "day is out of range for month"
  | hour => "hour must be in 0..23"
  | minute => "minute must be in 0..59"
  | second => "second must be in 0..59"
  | offset minutes =>
    "offset must be a timedelta strictly between -timedelta(hours=24) and timedelta(hours=24), not "
      ++ durationText minutes ++ "."

end TimeError

namespace Date

/-- Whether a year has a leap day. -/
def isLeap (year : Nat) : Bool := year % 4 == 0 && (year % 100 != 0 || year % 400 == 0)

/-- The number of days of a month. -/
def daysIn (year month : Nat) : Nat :=
  if month = 2 then (if isLeap year then 29 else 28)
  else if month = 4 ∨ month = 6 ∨ month = 9 ∨ month = 11 then 30
  else 31

/-- The day of the calendar with the given numbers, if there is one. -/
def mk? (year month day : Nat) : Except TimeError Date :=
  if year = 0 then .error (.year year)
  else if month = 0 ∨ 12 < month then .error .month
  else if day = 0 ∨ daysIn year month < day then .error .day
  else .ok ⟨year, month, day⟩

/-- The number of days from the first day of year 1. -/
def ordinal (d : Date) : Nat :=
  let y := d.year - 1
  y * 365 + y / 4 - y / 100 + y / 400
    + (List.range (d.month - 1)).foldl (fun n m => n + daysIn d.year (m + 1)) 0 + (d.day - 1)

/-- The day as `2024-01-31`. -/
def text (d : Date) : String :=
  padNat 4 d.year ++ "-" ++ padNat 2 d.month ++ "-" ++ padNat 2 d.day

end Date

namespace Timestamp

/-- The time with the given numbers, if there is one. -/
def mk? (year month day hour minute second microsecond : Nat) (offset : Option Int) :
    Except TimeError Timestamp :=
  match offset.filter fun o => 1440 ≤ o.natAbs with
  | some o => .error (.offset o)
  | none =>
    match Date.mk? year month day with
    | .error e => .error e
    | .ok date =>
      if 23 < hour then .error .hour
      else if 59 < minute then .error .minute
      else if 59 < second then .error .second
      else .ok ⟨date, hour, minute, second, microsecond, offset⟩

/-- The distance to universal time as `+02:00`. -/
def offsetText (minutes : Int) : String :=
  (if minutes < 0 then "-" else "+") ++
    padNat 2 (minutes.natAbs / 60) ++ ":" ++ padNat 2 (minutes.natAbs % 60)

/-- The time as `2024-01-31T10:20:30.500000+02:00`, with `sep` between day and time. -/
def text (sep : String) (t : Timestamp) : String :=
  t.date.text ++ sep ++ padNat 2 t.hour ++ ":" ++ padNat 2 t.minute ++ ":" ++ padNat 2 t.second
    ++ (if t.microsecond = 0 then "" else "." ++ padNat 6 t.microsecond)
    ++ (match t.offset with | some o => offsetText o | none => "")

/-- The number of microseconds from the start of year 1, in universal time if the
    distance to it is known. -/
def instant (t : Timestamp) : Int :=
  let minutes : Int := (t.date.ordinal * 24 + t.hour) * 60 + t.minute - t.offset.getD 0
  (minutes * 60 + t.second) * 1000000 + t.microsecond

end Timestamp

end CategoryLint
