/-!
Days and instants as data: a day of the calendar, and a day with a time, which may say how far ahead
of universal time it is. Any numbers can be written down; the check tells which of them exist.
-/
namespace Uncertainty

structure Day where
  year : Nat
  month : Nat
  day : Nat
deriving DecidableEq

/-- A time of day; the zone counts the minutes ahead of universal time. -/
structure DayTime where
  hour : Nat
  minute : Nat
  second : Nat
  microsecond : Nat
  zone : Option Int
deriving DecidableEq

inductive Moment where
  | day (day : Day)
  | instant (day : Day) (time : DayTime)
deriving DecidableEq

namespace Moment

abbrev minutesOfDay : Nat := 24 * 60

def isLeap (year : Nat) : Bool :=
  year % 4 = 0 && (year % 100 ≠ 0 || year % 400 = 0)

def daysIn (year month : Nat) : Nat :=
  if month = 2 then if isLeap year then 29 else 28
  else if month = 4 || month = 6 || month = 9 || month = 11 then 30
  else 31

def spanText (minutes : Int) : String :=
  let days := minutes.fdiv minutesOfDay
  let seconds := minutes.fmod minutesOfDay * 60
  let parts := (if days = 0 then [] else [s!"days={days}"])
    ++ (if seconds = 0 then [] else [s!"seconds={seconds}"])
  "datetime.timedelta(" ++ ", ".intercalate parts ++ ")"

inductive Nonexistent where
  | zone (minutes : Int)
  | year (year : Nat)
  | month
  | day
  | hour
  | minute
  | second
deriving DecidableEq

def Nonexistent.message : Nonexistent → String
  | .zone minutes =>
    "offset must be a timedelta strictly between -timedelta(hours=24) and " ++
      s!"timedelta(hours=24), not {spanText minutes}."
  | .year n => s!"year {n} is out of range"
  | .month => "month must be in 1..12"
  | .day => "day is out of range for month"
  | .hour => "hour must be in 0..23"
  | .minute => "minute must be in 0..59"
  | .second => "second must be in 0..59"

def checkDay (day : Day) : Except Nonexistent Unit :=
  if day.year = 0 then .error (.year day.year)
  else if day.month = 0 || 12 < day.month then .error .month
  else if day.day = 0 || daysIn day.year day.month < day.day then .error .day
  else .ok ()

def checkTime (time : DayTime) : Except Nonexistent Unit :=
  if 23 < time.hour then .error .hour
  else if 59 < time.minute then .error .minute
  else if 59 < time.second then .error .second
  else .ok ()

/-- A zone is less than a day away; it is looked at first, then the day, then the time. -/
def check : Moment → Except Nonexistent Unit
  | day d => checkDay d
  | instant d time => do
    match time.zone with
    | some minutes => if minutesOfDay ≤ minutes.natAbs then throw (.zone minutes)
    | none => pure ()
    checkDay d
    checkTime time

def digits (width n : Nat) : String :=
  String.ofList ((Nat.toDigits 10 n).leftpad width '0')

def dayText (d : Day) : String :=
  digits 4 d.year ++ "-" ++ digits 2 d.month ++ "-" ++ digits 2 d.day

def zoneText (minutes : Int) : String :=
  (if minutes < 0 then "-" else "+") ++ digits 2 (minutes.natAbs / 60) ++ ":"
    ++ digits 2 (minutes.natAbs % 60)

def text : Moment → String
  | day d => dayText d
  | instant d time =>
    dayText d ++ " " ++ digits 2 time.hour ++ ":" ++ digits 2 time.minute ++ ":"
      ++ digits 2 time.second
      ++ (if time.microsecond = 0 then "" else "." ++ digits 6 time.microsecond)
      ++ (time.zone.map zoneText).getD ""

def zoneDisplay (minutes : Int) : String :=
  if minutes = 0 then "datetime.timezone.utc" else s!"datetime.timezone({spanText minutes})"

def shortKind : Moment → String
  | day _ => "date"
  | instant .. => "datetime"

def kind (moment : Moment) : String :=
  "datetime." ++ moment.shortKind

def display (moment : Moment) : String :=
  let parts : List String := match moment with
    | day d => [d.year, d.month, d.day].map toString
    | instant d time =>
      ([d.year, d.month, d.day, time.hour, time.minute]
        ++ (if time.microsecond ≠ 0 then [time.second, time.microsecond]
          else if time.second ≠ 0 then [time.second] else [])).map toString
        ++ (time.zone.map fun minutes => "tzinfo=" ++ zoneDisplay minutes).toList
  moment.kind ++ "(" ++ ", ".intercalate parts ++ ")"

end Moment
end Uncertainty
