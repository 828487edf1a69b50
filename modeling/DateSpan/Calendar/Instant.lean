import DateSpan.Calendar.Basic
import DateSpan.Text.Layout

/-! Instants: the seconds of the years 1 to 9999, and their calendar readings. -/

namespace DateSpan.Calendar

structure Civil where
  year : Nat
  month : Nat
  day : Nat
  hour : Nat
  minute : Nat
  second : Nat
  deriving DecidableEq, Repr

namespace Civil

/-- A reading that occurs: a day of the Gregorian calendar in the years 1 to 9999 and a time of day. -/
structure Valid (c : Civil) : Prop where
  year : 1 ≤ c.year ∧ c.year ≤ 9999
  month : 1 ≤ c.month ∧ c.month ≤ 12
  day : 1 ≤ c.day ∧ c.day ≤ daysInMonth c.year c.month
  hour : c.hour ≤ 23
  minute : c.minute ≤ 59
  second : c.second ≤ 59

def dayNumber (c : Civil) : Nat :=
  daysBeforeYear c.year + daysBeforeMonth c.year c.month + (c.day - 1)

def secondOfDay (c : Civil) : Nat :=
  3600 * c.hour + 60 * c.minute + c.second

def seconds (c : Civil) : Nat :=
  86400 * c.dayNumber + c.secondOfDay

def ofSeconds (n : Nat) : Civil :=
  let day := n / 86400
  let time := n % 86400
  let year := yearOfDay day
  let (months, days) := splitSpans (monthLengths year) (day - daysBeforeYear year)
  ⟨year, months + 1, days + 1, time / 3600, time / 60 % 60, time % 60⟩

def component (c : Civil) : Component → Nat
  | .year => c.year
  | .month => c.month
  | .day => c.day
  | .hour => c.hour
  | .minute => c.minute
  | .second => c.second

def text (c : Civil) : String :=
  Text.zeroPadded 4 c.year ++ "-" ++ Text.zeroPadded 2 c.month ++ "-" ++ Text.zeroPadded 2 c.day
    ++ "T" ++ Text.zeroPadded 2 c.hour ++ ":" ++ Text.zeroPadded 2 c.minute ++ ":"
    ++ Text.zeroPadded 2 c.second

def digits (c : Civil) : String :=
  Text.zeroPadded 4 c.year ++ Text.zeroPadded 2 c.month ++ Text.zeroPadded 2 c.day
    ++ Text.zeroPadded 2 c.hour ++ Text.zeroPadded 2 c.minute ++ Text.zeroPadded 2 c.second

end Civil

/-- Why six numbers are no calendar reading; the first field at fault counts. -/
inductive FieldFault
  | year (given : Int)
  | month
  | day
  | hour
  | minute
  | second
  deriving DecidableEq, Repr

def Civil.ofFields (year month day hour minute second : Int) : Except FieldFault Civil :=
  if year < 1 ∨ 9999 < year then .error (.year year)
  else if month < 1 ∨ 12 < month then .error .month
  else if day < 1 ∨ daysInMonth year.toNat month.toNat < day then .error .day
  else if hour < 0 ∨ 23 < hour then .error .hour
  else if minute < 0 ∨ 59 < minute then .error .minute
  else if second < 0 ∨ 59 < second then .error .second
  else .ok ⟨year.toNat, month.toNat, day.toNat, hour.toNat, minute.toNat, second.toNat⟩

def calendarSeconds : Nat := 315537897600

/-- A second of the years 1 to 9999, counted from the start of year 1. -/
structure Instant where
  seconds : Nat
  inCalendar : seconds < calendarSeconds
  deriving DecidableEq, Repr

namespace Instant

def ofSeconds? (n : Int) : Option Instant :=
  if h : 0 ≤ n ∧ n.toNat < calendarSeconds then some ⟨n.toNat, h.2⟩ else none

def civil (i : Instant) : Civil :=
  Civil.ofSeconds i.seconds

def shiftSeconds (i : Instant) (seconds : Int) : Option Instant :=
  ofSeconds? (i.seconds + seconds)

end Instant

structure Moment where
  instant : Instant
  micro : Nat
  deriving DecidableEq, Repr

namespace Moment

/-- A moment in UTC; microseconds are written only where there are some. -/
def text (m : Moment) : String :=
  m.instant.civil.text ++ (if m.micro = 0 then "" else "." ++ Text.zeroPadded 6 m.micro) ++ "+00:00"

end Moment

end DateSpan.Calendar
