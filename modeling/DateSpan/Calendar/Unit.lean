import DateSpan.Calendar.Offset

/-! Units of time that moments are moved by. -/

namespace DateSpan.Calendar

/-- A component, or one of three units beside them. A leap day counts only in a leap year, after
February. -/
inductive Unit
  | component (c : Component)
  | week
  | microsecond
  | leapDay
  deriving DecidableEq, Repr

namespace Unit

def name : Unit → String
  | component c => c.name
  | week => "week"
  | microsecond => "microsecond"
  | leapDay => "leapday"

def all : List Unit :=
  Component.all.map component ++ [week, microsecond, leapDay]

def ofName? (s : String) : Option Unit :=
  all.find? fun u => u.name == s

/-- Amounts of these units are carried into larger ones with their sign. -/
def isCarried : Unit → Bool
  | component .year | component .day | week | leapDay => false
  | component _ | microsecond => true

end Unit

namespace Moment

def shiftMicro (m : Moment) (n : Int) : Option Moment :=
  let total := m.micro + n
  (m.instant.shiftSeconds (total / 1000000)).map fun i => ⟨i, (total % 1000000).toNat⟩

def takesLeapDays (m : Moment) : Bool :=
  let c := m.instant.civil
  isLeap c.year && decide (2 < c.month)

def shiftBy (m : Moment) (unit : Unit) (n : Int) : Option Moment :=
  match unit with
  | .component c => m.shift c n
  | .week => m.shift .day (7 * n)
  | .microsecond => m.shiftMicro n
  | .leapDay => if m.takesLeapDays then m.shift .day n else some m

end Moment

end DateSpan.Calendar
