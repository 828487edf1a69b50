import DateSpan.Decimal.Reading
import DateSpan.Version.Arithmetic

/-! Numbers, dates and times from the data of their parts. Wrong kinds of data, data too large for
their place, and data that name no date are told apart. -/

namespace DateSpan

open Calendar Decimal

namespace Datum

def toFloat : Datum → Except Fault Datum
  | text s =>
    match Binary64.ofText? s with
    | some x => .ok (float x)
    | none => .error .unusableValue
  | float x => .ok (float x)
  | int n => if floatLimit ≤ n.natAbs then .error .tooLarge else .ok (float (.ofInt n))
  | bool b => .ok (float (.ofInt (if b then 1 else 0)))
  | _ => .error .argumentMismatch

def toField : Datum → Except Fault Int
  | int n => if Version.fitsWord n then .ok n else .error .tooLarge
  | bool b => .ok (if b then 1 else 0)
  | _ => .error .argumentMismatch

/-- A moment from year, month and day, and as much of hour, minute, second and microsecond as is
given. -/
def toMoment (fields : List Datum) : Except Fault Moment := do
  let numbers ← (fields.take 7).mapM toField
  if 7 < fields.length then throw .argumentMismatch
  match numbers with
  | year :: month :: day :: time =>
    let at_ (i : Nat) := time.getD i 0
    match Civil.ofFields year month day (at_ 0) (at_ 1) (at_ 2) with
    | .error _ => throw .unusableValue
    | .ok c =>
      match Instant.ofSeconds? c.seconds with
      | none => throw .unusableValue
      | some i =>
        if at_ 3 < 0 ∨ 999999 < at_ 3 then throw .unusableValue
        return ⟨i, (at_ 3).toNat⟩
  | _ => throw .argumentMismatch

def maxDays : Nat := 999999999

def toOffset : Datum → Except Fault (Option Int)
  | null => .ok none
  | bool b => .ok (some (if b then 60000000 else 0))
  | int n =>
    if maxDays < (n / 1440).natAbs then .error .tooLarge
    else if 1440 ≤ n.natAbs then .error .unusableValue
    else .ok (some (60000000 * n))
  | _ => .error .argumentMismatch

def toDatetime (fields : List Datum) (offset : Datum) : Except Fault Datum := do
  let zone ← toOffset offset
  return datetime (← toMoment fields) zone

def toDate (fields : List Datum) : Except Fault Datum := do
  if 3 < fields.length then throw .argumentMismatch
  return date (← toMoment fields).instant

/-- The number of units that a datum gives. Of years and months a text is told apart from other data
that are no number. -/
def toAmount (unit : Calendar.Unit) : Datum → Except Fault Int
  | int n => .ok n
  | bool b => .ok (if b then 1 else 0)
  | text _ =>
    if unit = .component .year ∨ unit = .component .month then .error .unusableValue
    else .error .argumentMismatch
  | _ => .error .argumentMismatch

end Datum

/-- Moves a moment by an amount of the unit that a name gives. An amount of leap days is not looked at
where they do not count, and any datum that counts as false is none of them. -/
def Calendar.Moment.movedBy (m : Moment) (unit : String) (amount : Datum) : Except Fault Moment := do
  match Calendar.Unit.ofName? unit with
  | none => throw .argumentMismatch
  | some u =>
    if u = .leapDay ∧ ¬ (m.takesLeapDays ∧ amount.truthy) then return m
    m.moved u (← amount.toAmount u)

end DateSpan
