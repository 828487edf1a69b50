import DateSpan.Calendar.Basic

/-! Durations: counts of the six components, never normalised, and their written form. -/

namespace DateSpan

open Calendar

structure Duration where
  years : Nat
  months : Nat
  days : Nat
  hours : Nat
  minutes : Nat
  seconds : Nat
  deriving DecidableEq, Repr

namespace Duration

def zero : Duration := ⟨0, 0, 0, 0, 0, 0⟩

def amount (d : Duration) : Component → Nat
  | .year => d.years
  | .month => d.months
  | .day => d.days
  | .hour => d.hours
  | .minute => d.minutes
  | .second => d.seconds

def amounts (d : Duration) : List (Component × Nat) :=
  Component.all.map fun c => (c, d.amount c)

def isZero (d : Duration) : Bool :=
  d.amounts.all fun (_, n) => n == 0

def part (n : Nat) (designator : Char) : List Char :=
  if n = 0 then [] else Nat.toDigits 10 n ++ [designator]

def datePart (d : Duration) : List Char :=
  part d.years 'Y' ++ part d.months 'M' ++ part d.days 'D'

def timePart (d : Duration) : List Char :=
  part d.hours 'H' ++ part d.minutes 'M' ++ part d.seconds 'S'

/-- The written form: zero counts are left out, and a `T` stands before a time part. -/
def letters (d : Duration) : List Char :=
  if d.datePart = [] ∧ d.timePart = [] then ['P', 'T', '0', 'S']
  else if d.timePart = [] then 'P' :: d.datePart
  else 'P' :: d.datePart ++ 'T' :: d.timePart

def text (d : Duration) : String :=
  String.ofList d.letters

end Duration

end DateSpan
