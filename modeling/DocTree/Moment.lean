import DocTree.Text.Split

/-! Moments: days of the calendar, and times of a day. -/

namespace DocTree

/-- A day of the calendar. -/
structure Day where
  year : Nat
  month : Nat
  day : Nat
deriving DecidableEq, Repr, Inhabited

/-- A time of a day, in whole microseconds. -/
structure Clock where
  hour : Nat
  minute : Nat
  second : Nat
  micro : Nat := 0
deriving DecidableEq, Repr, Inhabited

/-- A day, or a time on a day. `offset` is by how many minutes its clock is ahead of universal time,
where that is known. -/
inductive Moment where
  | day (day : Day)
  | time (day : Day) (clock : Clock) (offset : Option Int)
deriving DecidableEq, Repr, Inhabited

namespace Moment

/-- What is wrong with the parts of a moment. -/
inductive Fault where
  | year (n : Nat)
  | month
  | day
  | hour
  | minute
  | second
  | offset (minutes : Int)
deriving DecidableEq, Repr

end Moment

namespace Day

/-- A year with a day more than usual. -/
def isLeap (year : Nat) : Bool := year % 4 == 0 && (year % 100 != 0 || year % 400 == 0)

/-- The number of days of a month. -/
def monthLength (year month : Nat) : Nat :=
  if month == 2 then if isLeap year then 29 else 28
  else if month == 4 || month == 6 || month == 9 || month == 11 then 30 else 31

/-- What is wrong with a day, if there is no such day. -/
def fault? (d : Day) : Option Moment.Fault :=
  if d.year == 0 then some (.year d.year)
  else if d.month == 0 || d.month > 12 then some .month
  else if d.day == 0 || d.day > monthLength d.year d.month then some .day
  else none

/-- The number of the day in the calendar: the first day of the year one has the number one. -/
def number (d : Day) : Nat :=
  let past := d.year - 1
  let months := (List.range (d.month - 1)).map fun m => monthLength d.year (m + 1)
  past * 365 + past / 4 - past / 100 + past / 400 + months.foldl (· + ·) 0 + d.day

end Day

/-- What is wrong with a time, if there is no such time. -/
def Clock.fault? (c : Clock) : Option Moment.Fault :=
  if c.hour > 23 then some .hour
  else if c.minute > 59 then some .minute
  else if c.second > 59 then some .second
  else none

namespace Moment

/-- The number of minutes of a day. -/
def dayMinutes : Nat := 1440

/-- What is wrong with a moment, if there is no such moment. A clock is less than a day ahead or
behind. -/
def fault? : Moment → Option Fault
  | day d => d.fault?
  | time d c offset =>
    match offset with
    | some minutes =>
      if minutes.natAbs ≥ dayMinutes then some (.offset minutes) else d.fault?.or c.fault?
    | none => d.fault?.or c.fault?

/-- The microseconds of a time since the start of the calendar, in universal time if its clock is
`offset` minutes ahead. -/
def instant (d : Day) (c : Clock) (offset : Int) : Int :=
  let minutes : Int := ((d.number * 24 + c.hour) * 60 + c.minute : Nat) - offset
  (minutes * 60 + c.second) * 1000000 + c.micro

/-- Whether two moments are one: clocks that are set differently may show the same time. -/
def same (a b : Moment) : Bool :=
  match a, b with
  | time d c (some i), time e f (some j) => instant d c i == instant e f j
  | _, _ => a == b

/-- A number with zeros before it. -/
def padded (width n : Nat) : String :=
  let digits := toString n
  "".pushn '0' (width - digits.length) ++ digits

end Moment

/-- The text of a day. -/
def Day.text (d : Day) : String :=
  Moment.padded 4 d.year ++ "-" ++ Moment.padded 2 d.month ++ "-" ++ Moment.padded 2 d.day

/-- The text of a time. -/
def Clock.text (c : Clock) : String :=
  Moment.padded 2 c.hour ++ ":" ++ Moment.padded 2 c.minute ++ ":" ++ Moment.padded 2 c.second ++
    (if c.micro == 0 then "" else "." ++ Moment.padded 6 c.micro)

namespace Moment

/-- The text of an offset. -/
def offsetText (minutes : Int) : String :=
  (if minutes < 0 then "-" else "+") ++ padded 2 (minutes.natAbs / 60) ++ ":" ++
    padded 2 (minutes.natAbs % 60)

/-- The text of a moment. -/
def text : Moment → String
  | day d => d.text
  | time d c offset => d.text ++ " " ++ c.text ++ (offset.map offsetText).getD ""

/-- A distance in minutes, in the form that shows it: in days and seconds, of which only the days
can be negative. -/
def shownDistance (minutes : Int) : String :=
  let days := minutes.fdiv dayMinutes
  let seconds := minutes.fmod dayMinutes * 60
  "datetime.timedelta(" ++ Text.join ", "
    ((if days == 0 then [] else ["days=" ++ toString days]) ++
      (if seconds == 0 then [] else ["seconds=" ++ toString seconds])) ++ ")"

/-- An offset in the form that shows it. -/
def shownOffset (minutes : Int) : String :=
  if minutes == 0 then "datetime.timezone.utc"
  else "datetime.timezone(" ++ shownDistance minutes ++ ")"

/-- A moment in the form that shows its parts. Seconds are left out if they are zero. -/
def shown : Moment → String
  | day d => "datetime.date(" ++ Text.join ", " ([d.year, d.month, d.day].map toString) ++ ")"
  | time d c offset =>
    let parts := [d.year, d.month, d.day, c.hour, c.minute] ++
      (if c.micro != 0 then [c.second, c.micro] else if c.second != 0 then [c.second] else [])
    "datetime.datetime(" ++ Text.join ", " (parts.map toString ++
      (offset.map fun minutes => "tzinfo=" ++ shownOffset minutes).toList) ++ ")"

end Moment

end DocTree
