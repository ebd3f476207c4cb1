/-!
# Dates and times

A document may name a day, or a moment: a day with a time of day, maybe with its offset from
universal time. `Moment.day` and `Moment.timed` check that the calendar has such a day and the clock
such a time, and say which part is out of range where it is not.

Two moments with offsets are the same when they are the same instant, whatever their offsets; any
other two are the same when all their parts are (`Moment.same`).
-/

namespace AccessPolicy.Document

/-- A day of the calendar. -/
structure Day where
  year : Nat
  month : Nat
  day : Nat
  deriving DecidableEq, Repr

/-- A time of day. -/
structure Clock where
  hour : Nat
  minute : Nat
  second : Nat
  microsecond : Nat
  deriving DecidableEq, Repr

/-- A day, or a time on a day, maybe with the seconds by which it is ahead of universal time. -/
inductive Moment where
  | day (d : Day)
  | timed (d : Day) (c : Clock) (offset : Option Int)
  deriving DecidableEq, Repr

/-- The part of a moment that is out of range. -/
inductive CalendarError where
  | year (n : Nat)
  | month
  | day
  | hour
  | minute
  | second
  /-- An offset of a day or more. -/
  | offset (seconds : Int)
  deriving DecidableEq, Repr

/-! ## Durations -/

/-- Words apart by commas. -/
def commas (words : List String) : String := ", ".intercalate words

/-- The number of seconds in a day. -/
def daySeconds : Nat := 86400

/-- A duration in whole days and the seconds left over, as it is shown. -/
def durationText (seconds : Int) : String :=
  let days := seconds.fdiv daySeconds
  let rest := seconds.fmod daySeconds
  let parts := (if days = 0 then [] else ["days=" ++ toString days])
    ++ (if rest = 0 then [] else ["seconds=" ++ toString rest])
  "datetime.timedelta(" ++ (if parts.isEmpty then "0" else commas parts) ++ ")"

/-- The error in words. -/
def CalendarError.message : CalendarError → String
  | .year n => "year " ++ toString n ++ " is out of range"
  | .month => "month must be in 1..12"
  | .day => "day is out of range for month"
  | .hour => "hour must be in 0..23"
  | .minute => "minute must be in 0..59"
  | .second => "second must be in 0..59"
  | .offset seconds =>
    "offset must be a timedelta strictly between -timedelta(hours=24) and timedelta(hours=24), not "
      ++ durationText seconds ++ "."

/-! ## Days -/

namespace Day

/-- Whether a year has a leap day. -/
def isLeap (year : Nat) : Bool := year % 4 = 0 && (year % 100 ≠ 0 || year % 400 = 0)

/-- The number of days in a month. -/
def monthLength (year month : Nat) : Nat :=
  if month = 2 then if isLeap year then 29 else 28
  else if month = 4 ∨ month = 6 ∨ month = 9 ∨ month = 11 then 30
  else 31

/-- A day, where the calendar has it. -/
def check (d : Day) : Except CalendarError Unit :=
  if d.year = 0 then .error (.year 0)
  else if d.month = 0 ∨ 12 < d.month then .error .month
  else if d.day = 0 ∨ monthLength d.year d.month < d.day then .error .day
  else .ok ()

/-- The number of days up to a day, itself included, from the first day of the first year on. -/
def ordinal (d : Day) : Nat :=
  let before := d.year - 1
  365 * before + before / 4 - before / 100 + before / 400
    + (List.range (d.month - 1)).foldl (fun days m => days + monthLength d.year (m + 1)) 0 + d.day

/-- The parts of a day, as they are shown. -/
def parts (d : Day) : List String := [toString d.year, toString d.month, toString d.day]

end Day

namespace Clock

/-- A time of day, where the clock has it. -/
def check (c : Clock) : Except CalendarError Unit :=
  if 23 < c.hour then .error .hour
  else if 59 < c.minute then .error .minute
  else if 59 < c.second then .error .second
  else .ok ()

/-- The seconds from midnight on. -/
def seconds (c : Clock) : Nat := 3600 * c.hour + 60 * c.minute + c.second

/-- The parts of a time of day, as they are shown: zeros at the end are left out, but never the hour
and the minute. -/
def parts (c : Clock) : List String :=
  [toString c.hour, toString c.minute]
    ++ (if c.second = 0 ∧ c.microsecond = 0 then [] else [toString c.second])
    ++ (if c.microsecond = 0 then [] else [toString c.microsecond])

end Clock

/-! ## Moments -/

namespace Moment

/-- The moment of a day, where the calendar has it. -/
def ofDay (d : Day) : Except CalendarError Moment := do
  d.check
  .ok (.day d)

/-- The moment of a time on a day. The offset is looked at first. -/
def ofTime (d : Day) (c : Clock) (offset : Option Int) : Except CalendarError Moment := do
  if let some seconds := offset then
    if daySeconds ≤ seconds.natAbs then throw (.offset seconds)
  d.check
  c.check
  .ok (.timed d c offset)

/-- The microseconds of a moment with an offset, in universal time. -/
def instant (d : Day) (c : Clock) (offset : Int) : Int :=
  1000000 * ((daySeconds * d.ordinal + c.seconds : Nat) - offset) + c.microsecond

/-- Whether two moments are the same. -/
def same : Moment → Moment → Bool
  | .timed d c (some offset), .timed e b (some other) => instant d c offset == instant e b other
  | a, b => a == b

/-- An offset from universal time, as it is shown. -/
def zoneText (offset : Int) : String :=
  if offset = 0 then "datetime.timezone.utc" else "datetime.timezone(" ++ durationText offset ++ ")"

/-- A moment as it is shown. -/
def text : Moment → String
  | .day d => "datetime.date(" ++ commas d.parts ++ ")"
  | .timed d c offset =>
    "datetime.datetime("
      ++ commas (d.parts ++ c.parts ++ offset.toList.map fun s => "tzinfo=" ++ zoneText s) ++ ")"

end Moment
end AccessPolicy.Document
