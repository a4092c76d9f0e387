/-!
Dates, and dates with a time of day, which may name their offset from universal time.
A moment that is not on the calendar or the clock has a fault, found in a fixed order;
two moments are the same when they cannot be told apart, or when both name an offset
and denote one instant.
-/

namespace QueryOutline

structure Date where
  year : Nat
  month : Nat
  day : Nat
  deriving DecidableEq, Repr

structure Time where
  hour : Nat
  minute : Nat
  second : Nat
  microsecond : Nat := 0
  /-- The offset from universal time in minutes, if there is one. -/
  offset : Option Int := none
  deriving DecidableEq, Repr

inductive Moment where
  | date (d : Date)
  | dateTime (d : Date) (t : Time)
  deriving DecidableEq, Repr

/-- A call as it is written: the name and its arguments. -/
def callText (name : String) (arguments : List String) : String :=
  name ++ "(" ++ ", ".intercalate arguments ++ ")"

/-- A span of minutes; its days are whole and its seconds in a day not negative. -/
def spanText (minutes : Int) : String :=
  let days := minutes.fdiv 1440
  let seconds := (minutes - days * 1440) * 60
  callText "datetime.timedelta" <|
    (if days = 0 then [] else ["days=" ++ toString days]) ++
      if seconds = 0 then [] else ["seconds=" ++ toString seconds]

/-- What is out of range in a written date or time. -/
inductive DateFault where
  | year (n : Nat)
  | month
  | day
  | hour
  | minute
  | second
  | offset (minutes : Int)
  deriving DecidableEq, Repr

def DateFault.message : DateFault → String
  | year n => "year " ++ toString n ++ " is out of range"
  | month => "month must be in 1..12"
  | day => "day is out of range for month"
  | hour => "hour must be in 0..23"
  | minute => "minute must be in 0..59"
  | second => "second must be in 0..59"
  | offset minutes => "offset must be a timedelta strictly between " ++
      "-timedelta(hours=24) and timedelta(hours=24), not " ++ spanText minutes ++ "."

namespace Date

def isLeap (year : Nat) : Bool :=
  year % 4 == 0 && (year % 100 != 0 || year % 400 == 0)

def daysIn (year month : Nat) : Nat :=
  if month = 2 then if isLeap year then 29 else 28
  else if [4, 6, 9, 11].contains month then 30 else 31

def fault? (d : Date) : Option DateFault :=
  if d.year = 0 then some (.year 0)
  else if d.month = 0 || 12 < d.month then some .month
  else if d.day = 0 || daysIn d.year d.month < d.day then some .day
  else none

/-- The number of days since the beginning of the calendar. -/
def ordinal (d : Date) : Nat :=
  let years := d.year - 1
  let months := (List.range (d.month - 1)).map fun m => daysIn d.year (m + 1)
  years * 365 + years / 4 - years / 100 + years / 400 + months.foldl (· + ·) 0 + d.day

end Date

namespace Time

def offsetFault? (t : Time) : Option DateFault :=
  match t.offset with
  | some minutes => if 1440 ≤ minutes.natAbs then some (.offset minutes) else none
  | none => none

def clockFault? (t : Time) : Option DateFault :=
  if 23 < t.hour then some .hour
  else if 59 < t.minute then some .minute
  else if 59 < t.second then some .second
  else none

end Time

namespace Moment

/-- The offset is looked at before the date, and the clock behind it. -/
def fault? : Moment → Option DateFault
  | date d => d.fault?
  | dateTime d t => t.offsetFault?.or (d.fault?.or t.clockFault?)

/-- Microseconds since the beginning of the calendar, in universal time. -/
def instant (d : Date) (t : Time) (offset : Int) : Int :=
  let minutes : Int := (d.ordinal * 24 + t.hour) * 60 + t.minute
  ((minutes - offset) * 60 + t.second) * 1000000 + t.microsecond

def isSame : Moment → Moment → Bool
  | date d, date e => d == e
  | dateTime d t, dateTime e u =>
      match t.offset, u.offset with
      | some m, some n => instant d t m == instant e u n
      | none, none => d == e && t == u
      | _, _ => false
  | _, _ => false

def zoneText (minutes : Int) : String :=
  if minutes = 0 then "datetime.timezone.utc"
  else callText "datetime.timezone" [spanText minutes]

/-- Seconds and microseconds are left out at the end if they are zero. -/
def text : Moment → String
  | date d => callText "datetime.date" ([d.year, d.month, d.day].map toString)
  | dateTime d t =>
      let clock := if t.microsecond ≠ 0 then [t.hour, t.minute, t.second, t.microsecond]
        else if t.second ≠ 0 then [t.hour, t.minute, t.second]
        else [t.hour, t.minute]
      callText "datetime.datetime" (([d.year, d.month, d.day] ++ clock).map toString ++
        match t.offset with
        | some minutes => ["tzinfo=" ++ zoneText minutes]
        | none => [])

end Moment

end QueryOutline
