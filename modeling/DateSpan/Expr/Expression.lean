import DateSpan.Expr.Node

/-! Expressions as texts give them. Fields are kept as written, so an expression may name a day that
does not exist. -/

namespace DateSpan.Expr

open Calendar

inductive Brief
  | second (year month day hour minute second : Nat)
  | minute (year month day hour minute : Nat)
  | hour (year month day hour : Nat)
  | day (year month day : Nat)
  | month (year month : Nat)
  | year (year : Nat)
  deriving DecidableEq, Repr

namespace Brief

def precision : Brief → Component
  | second .. => .second
  | minute .. => .minute
  | hour .. => .hour
  | day .. => .day
  | month .. => .month
  | year .. => .year

def fields : Brief → List Nat
  | second y mo d h mi s => [y, mo, d, h, mi, s]
  | minute y mo d h mi => [y, mo, d, h, mi]
  | hour y mo d h => [y, mo, d, h]
  | day y mo d => [y, mo, d]
  | month y mo => [y, mo]
  | year y => [y]

end Brief

/-- The six counts of a written duration, years first; an unwritten one is absent. -/
structure Amounts where
  years : Option Nat
  months : Option Nat
  days : Option Nat
  hours : Option Nat
  minutes : Option Nat
  seconds : Option Nat
  deriving DecidableEq, Repr

def Amounts.counts (a : Amounts) : List (Option Nat) :=
  [a.years, a.months, a.days, a.hours, a.minutes, a.seconds]

/-- A brief with an operator before it; a strict one excludes the edge. -/
structure Bound where
  strict : Bool
  edge : Brief
  deriving DecidableEq, Repr

inductive Value
  | brief (b : Brief)
  | duration (a : Amounts)
  | lower (bound : Bound)
  | upper (bound : Bound)
  | between (lower upper : Bound)
  | relative (base : Brief) (side : Side) (extent : Amounts)
  deriving DecidableEq, Repr

/-- A value, and further values that may hold instead of it. -/
structure Expression where
  first : Value
  others : List Value
  deriving DecidableEq, Repr

def Expression.values (e : Expression) : List Value :=
  e.first :: e.others

end DateSpan.Expr
