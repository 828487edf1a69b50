import DateSpan.Room

/-! Version arithmetic: versions from calendar fields, shifts by components and by durations. -/

namespace DateSpan

open Calendar

/-- Integers from this magnitude on are too large for a floating-point number. -/
def floatLimit : Nat := Nat.pow 2 1024 - Nat.pow 2 970

/-- Moves a moment, within the calendar. The sign of an amount that is carried into larger units is
found as a floating-point number, and an amount that leads out of the calendar has to be shown. -/
def Calendar.Moment.moved (m : Moment) (unit : Calendar.Unit) (amount : Int) :
    Except Fault Moment :=
  if unit.isCarried && decide (floatLimit ≤ amount.natAbs) then .error .tooLarge
  else match m.shiftBy unit amount with
    | some m' => .ok m'
    | none =>
      .error (if Text.isWritable amount.natAbs then .outOfCalendar m amount unit else .longNumber)

def Calendar.Moment.shifted (m : Moment) (unit : Component) (amount : Int) : Except Fault Moment :=
  m.moved (.component unit) amount

namespace Version

def ofMoment (m : Moment) : Except Fault Version :=
  match ofInstant? m.instant with
  | some v => .ok v
  | none => .error (.beforeEpoch ⟨m.instant, 0⟩)

def fitsWord (n : Int) : Bool :=
  decide (-2147483648 ≤ n) && decide (n ≤ 2147483647)

def ofFieldsShown (given : List Datum) (year month day hour minute second : Int) :
    Except Fault Version :=
  if [year, month, day, hour, minute, second].all fitsWord then
    match Civil.ofFields year month day hour minute second with
    | .error f => .error (.invalidDate given (.field f))
    | .ok c =>
      match Instant.ofSeconds? c.seconds with
      | some i => ofMoment ⟨i, 0⟩
      | none => .error .tooLarge
  else .error .tooLarge

def ofFields (year month day hour minute second : Int) : Except Fault Version :=
  ofFieldsShown ([year, month, day, hour, minute, second].map Datum.int)
    year month day hour minute second

def fieldNumber (room : Room) (given : List Datum) : Datum → Except Fault Int
  | .int n => if fitsWord n then .ok n else .error .tooLarge
  | .bool b => .ok (if b then 1 else 0)
  | d => do
    let _ ← (Datum.tuple given).quoted room
    throw (.invalidDate given (.notInteger d.typePath))

def fieldDefaults : List Datum := [.int 1, .int 1, .int 0, .int 0, .int 0]

/-- The version with the fields that data give, from the year on, which must be there. The data are
taken as numbers one after another before any of them is checked against the calendar. -/
def ofComponents (room : Room) : List Datum → Except Fault Version
  | [] => .error .argumentMismatch
  | first :: more => do
    let given := first :: more ++ fieldDefaults.drop more.length
    if given.length ≠ Component.all.length then throw .argumentMismatch
    match ← given.mapM (fieldNumber room given) with
    | [year, month, day, hour, minute, second] =>
      ofFieldsShown given year month day hour minute second
    | _ => throw .argumentMismatch

def lastOf (v : Version) (unit : Component) : Except Fault Version :=
  let c := v.civil
  match unit with
  | .second => .ok v
  | .minute => ofFields c.year c.month c.day c.hour c.minute 59
  | .hour => ofFields c.year c.month c.day c.hour 59 59
  | .day => ofFields c.year c.month c.day 23 59 59
  | .month => ofFields c.year c.month (daysInMonth c.year c.month) 23 59 59
  | .year => ofFields c.year 12 31 23 59 59

def shifted (v : Version) (unit : Component) (amount : Int) : Except Fault Version := do
  ofMoment (← v.moment.shifted unit amount)

def increment (v : Version) (unit : Component) (amount : Nat) : Except Fault Version :=
  v.shifted unit amount

def decrement (v : Version) (unit : Component) (amount : Nat) : Except Fault Version :=
  v.shifted unit (-amount)

/-- Moves by each count that is not zero in turn, years first; `sign` is 1 or -1. -/
def shiftAll (sign : Int) : List (Component × Nat) → Moment → Except Fault Moment
  | [], m => .ok m
  | (unit, n) :: rest, m =>
    if n = 0 then shiftAll sign rest m
    else do shiftAll sign rest (← m.shifted unit (sign * n))

def addDuration (v : Version) (d : Duration) : Except Fault Version := do
  ofMoment (← shiftAll 1 d.amounts v.moment)

def minusDuration (v : Version) (d : Duration) : Except Fault Version := do
  ofMoment (← shiftAll (-1) d.amounts v.moment)

end Version

namespace Anchor

def lowerEdge (a : Anchor) : Except Fault Version :=
  if a.isOpen then a.version.increment .second 1 else .ok a.version

def upperEdge (a : Anchor) : Except Fault Version :=
  if a.isOpen then a.version.decrement .second 1 else .ok a.version

end Anchor

end DateSpan
