/-! The Gregorian calendar: lengths of years and months, and days counted from the first of year 1. -/

namespace DateSpan.Calendar

def isLeap (year : Nat) : Bool :=
  year % 4 == 0 && (year % 100 != 0 || year % 400 == 0)

def daysInMonth (year month : Nat) : Nat :=
  if month = 2 then (if isLeap year then 29 else 28)
  else if month = 4 ∨ month = 6 ∨ month = 9 ∨ month = 11 then 30
  else 31

def monthLengths (year : Nat) : List Nat :=
  (List.range' 1 12).map (daysInMonth year)

def daysBeforeYear (year : Nat) : Nat :=
  let p := year - 1
  365 * p + p / 4 - p / 100 + p / 400

def total (lengths : List Nat) : Nat :=
  lengths.foldr (· + ·) 0

def daysBeforeMonth (year month : Nat) : Nat :=
  total ((monthLengths year).take (month - 1))

/-- The year that a day falls in. The average length of a year gives it up to one year. -/
def yearOfDay (day : Nat) : Nat :=
  let guess := day * 400 / 146097 + 1
  if day < daysBeforeYear guess then guess - 1
  else if daysBeforeYear (guess + 1) ≤ day then guess + 1
  else guess

/-- Goes through spans of the given lengths: how many whole spans a count covers, and what is left. -/
def splitSpans : List Nat → Nat → Nat × Nat
  | [], n => (0, n)
  | l :: ls, n => if n < l then (0, n) else ((splitSpans ls (n - l)).1 + 1, (splitSpans ls (n - l)).2)

inductive Component
  | year | month | day | hour | minute | second
  deriving DecidableEq, Repr

namespace Component

def all : List Component := [year, month, day, hour, minute, second]

def name : Component → String
  | year => "year"
  | month => "month"
  | day => "day"
  | hour => "hour"
  | minute => "minute"
  | second => "second"

def ofName? (s : String) : Option Component :=
  all.find? fun c => c.name == s

end Component

end DateSpan.Calendar
