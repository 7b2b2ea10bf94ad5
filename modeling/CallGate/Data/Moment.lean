/-!
# Dates and times

A document can hold a date, or a date with a time of day and perhaps an offset from universal time.
They can be checked, told apart and written down, in two forms: `text` is a constructor call, and
`display` is the form of ISO 8601 with a blank between day and time.

Two times with offsets are the same when they are the same instant. A time without an offset is no
instant and is the same only as another one that reads alike, and a date is never the same as a
time.
-/

namespace CallGate.Data

/-- A day of the calendar. -/
structure Date where
  year : Nat
  month : Nat
  day : Nat
deriving DecidableEq, Repr

/-- A time of day; `offset` is in minutes east of universal time. -/
structure TimeOfDay where
  hour : Nat
  minute : Nat
  second : Nat
  microsecond : Nat
  offset : Option Int
deriving DecidableEq, Repr

/-- A day, or a time on a day. -/
structure Moment where
  date : Date
  time : Option TimeOfDay
deriving DecidableEq, Repr

/-- What makes a moment impossible. -/
inductive MomentFault where
  /-- The offset, in minutes, is a day or more. -/
  | offset (minutes : Int)
  | year (year : Nat)
  | month
  | day
  | hour
  | minute
  | second
deriving DecidableEq, Repr

private def isLeap (year : Nat) : Bool :=
  year % 4 == 0 && (year % 100 != 0 || year % 400 == 0)

private def daysIn (year month : Nat) : Nat :=
  if month = 2 then if isLeap year then 29 else 28
  else if month ∈ [4, 6, 9, 11] then 30
  else 31

/-- The first thing that is wrong with a moment: its offset, and then everything from its year to
its second. -/
def Moment.fault? (m : Moment) : Option MomentFault :=
  let d := m.date
  let offset := (m.time.bind (·.offset)).getD 0
  if offset.natAbs ≥ 24 * 60 then some (.offset offset)
  else if d.year < 1 ∨ 9999 < d.year then some (.year d.year)
  else if d.month < 1 ∨ 12 < d.month then some .month
  else if d.day < 1 ∨ daysIn d.year d.month < d.day then some .day
  else
    match m.time with
    | none => none
    | some t =>
      if 23 < t.hour then some .hour
      else if 59 < t.minute then some .minute
      else if 59 < t.second then some .second
      else none

/-! ## Equality -/

/-- The days before a year. -/
private def daysBeforeYear (year : Nat) : Nat :=
  let y := year - 1
  365 * y + y / 4 - y / 100 + y / 400

/-- The number of a day in the calendar. -/
def Date.number (d : Date) : Nat :=
  (List.range (d.month - 1)).foldl (fun days m ↦ days + daysIn d.year (m + 1))
    (daysBeforeYear d.year + d.day)

/-- A time on a day in microseconds, read without its offset. -/
def TimeOfDay.clock (t : TimeOfDay) (d : Date) : Int :=
  (((d.number * 24 + t.hour) * 60 + t.minute) * 60 + t.second) * 1000000 + t.microsecond

/-- Whether two moments are the same. -/
def Moment.same (m n : Moment) : Bool :=
  match m.time, n.time with
  | none, none => m.date == n.date
  | some t, some u =>
    match t.offset, u.offset with
    | none, none => m == n
    | some a, some b =>
      t.clock m.date - a * 60000000 == u.clock n.date - b * 60000000
    | _, _ => false
  | _, _ => false

/-! ## Written forms -/

/-- A name applied to arguments. -/
private def callText (name : String) (args : List String) : String :=
  name ++ "(" ++ ", ".intercalate args ++ ")"

/-- A span of minutes, as whole days and the seconds that are left over. -/
private def spanText (minutes : Int) : String :=
  let days := minutes / (24 * 60)
  let seconds := minutes % (24 * 60) * 60
  callText "datetime.timedelta" <|
    (if days = 0 then [] else [s!"days={days}"]) ++
      (if seconds = 0 then [] else [s!"seconds={seconds}"])

/-- An offset from universal time. -/
private def offsetText (minutes : Int) : String :=
  if minutes = 0 then "datetime.timezone.utc" else callText "datetime.timezone" [spanText minutes]

def MomentFault.text : MomentFault → String
  | offset minutes =>
      "offset must be a timedelta strictly between -timedelta(hours=24) and " ++
        s!"timedelta(hours=24), not {spanText minutes}."
  | year y => s!"year {y} is out of range"
  | month => "month must be in 1..12"
  | day => "day is out of range for month"
  | hour => "hour must be in 0..23"
  | minute => "minute must be in 0..59"
  | second => "second must be in 0..59"

/-- A moment as a constructor call. Seconds and microseconds are left out when nothing but zeros
would follow. -/
def Moment.text (m : Moment) : String :=
  let day := [m.date.year, m.date.month, m.date.day]
  match m.time with
  | none => callText "datetime.date" (day.map toString)
  | some t =>
    let clock :=
      if t.microsecond ≠ 0 then [t.hour, t.minute, t.second, t.microsecond]
      else if t.second ≠ 0 then [t.hour, t.minute, t.second]
      else [t.hour, t.minute]
    let zone := match t.offset with
      | none => []
      | some minutes => ["tzinfo=" ++ offsetText minutes]
    callText "datetime.datetime" ((day ++ clock).map toString ++ zone)

/-- The decimal digits of a number, filled up with zeros. -/
private def padded (width n : Nat) : String :=
  let digits := toString n
  String.ofList (List.replicate (width - digits.length) '0') ++ digits

/-- Hours and minutes of an offset, behind its sign. -/
private def offsetDisplay (minutes : Int) : String :=
  (if minutes < 0 then "-" else "+") ++
    padded 2 (minutes.natAbs / 60) ++ ":" ++ padded 2 (minutes.natAbs % 60)

/-- A moment for readers: the year first, and no microseconds if there are none. -/
def Moment.display (m : Moment) : String :=
  let day := "-".intercalate [padded 4 m.date.year, padded 2 m.date.month, padded 2 m.date.day]
  match m.time with
  | none => day
  | some t =>
    let clock := ":".intercalate [padded 2 t.hour, padded 2 t.minute, padded 2 t.second]
    let fraction := if t.microsecond = 0 then "" else "." ++ padded 6 t.microsecond
    day ++ " " ++ clock ++ fraction ++ (t.offset.map offsetDisplay).getD ""

end CallGate.Data
