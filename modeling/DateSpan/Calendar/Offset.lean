import DateSpan.Calendar.Instant

/-! Offsets: signed counts of units that are added to a calendar reading, years and months first. -/

namespace DateSpan.Calendar

structure Offset where
  years : Int
  months : Int
  days : Int
  hours : Int
  minutes : Int
  seconds : Int
  deriving DecidableEq, Repr

namespace Offset

def single (unit : Component) (n : Int) : Offset :=
  match unit with
  | .year => ⟨n, 0, 0, 0, 0, 0⟩
  | .month => ⟨0, n, 0, 0, 0, 0⟩
  | .day => ⟨0, 0, n, 0, 0, 0⟩
  | .hour => ⟨0, 0, 0, n, 0, 0⟩
  | .minute => ⟨0, 0, 0, 0, n, 0⟩
  | .second => ⟨0, 0, 0, 0, 0, n⟩

/-- What a count holds of a larger unit goes into that unit, and both keep the sign. Days are not
carried into months, which differ in length. -/
def carried (o : Offset) : Offset :=
  let minutes := o.minutes + o.seconds.tdiv 60
  let hours := o.hours + minutes.tdiv 60
  { years := o.years + o.months.tdiv 12
    months := o.months.tmod 12
    days := o.days + hours.tdiv 24
    hours := hours.tmod 24
    minutes := minutes.tmod 60
    seconds := o.seconds.tmod 60 }

def time (o : Offset) : Int :=
  86400 * o.days + 3600 * o.hours + 60 * o.minutes + o.seconds

end Offset

namespace Civil

/-- Adds the years and months of an offset, of months less than a year; a day that the month lacks
becomes its last. None outside the years 1 to 9999. -/
def addMonths (c : Civil) (o : Offset) : Option Civil :=
  let year := c.year + o.years
  let month := c.month + o.months
  let (year, month) :=
    if 12 < month then (year + 1, month - 12)
    else if month < 1 then (year - 1, month + 12)
    else (year, month)
  if 1 ≤ year ∧ year ≤ 9999 then
    let day := min c.day (daysInMonth year.toNat month.toNat)
    some { c with year := year.toNat, month := month.toNat, day := day }
  else none

def add (c : Civil) (o : Offset) : Option Instant := do
  let moved ← c.addMonths o
  Instant.ofSeconds? (moved.seconds + o.time)

end Civil

namespace Instant

/-- Moves by a number of units of a component; none if the calendar ends before. Years and months are
added to the first of the month and the days of the month after them, so a day that the target month
lacks falls into the month after it. -/
def shift (i : Instant) (unit : Component) (amount : Int) : Option Instant :=
  let c := i.civil
  let offset := (Offset.single unit amount).carried
  match unit with
  | .year | .month => do
    let first ← ({ c with day := 1 } : Civil).add offset
    ofSeconds? (first.seconds + 86400 * (c.day - 1 : Nat))
  | _ => c.add offset

end Instant

def Moment.shift (m : Moment) (unit : Component) (amount : Int) : Option Moment :=
  (m.instant.shift unit amount).map fun i => { m with instant := i }

end DateSpan.Calendar
