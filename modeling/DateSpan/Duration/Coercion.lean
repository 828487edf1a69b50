import DateSpan.Settings.Policy

/-! Durations from texts, tables and counts. -/

namespace DateSpan

open Calendar DateSpan.Expr

def insertName (name : String) : List String → List String
  | [] => [name]
  | n :: ns => if name ≤ n then name :: n :: ns else n :: insertName name ns

def sortNames (names : List String) : List String :=
  names.foldr insertName []

def Calendar.Component.named? (d : Datum) : Option Component :=
  d.asText?.bind Component.ofName?

namespace Duration

def written (d : Duration) : Except Fault String :=
  if (Datum.duration d).isShowable then .ok d.text else .error .longNumber

/-- One count of a duration: none and null are zero. -/
def countOf (room : Room) (unit : Component) : Option Datum → Except Fault Nat
  | none | some .null => .ok 0
  | some (.int n) => if n < 0 then .error (.durationNegative unit) else .ok n.toNat
  | some d => do
    let _ ← d.quoted room
    throw (.durationAmountType unit d)

def unknownIn (t : Table) : List Datum :=
  t.names.filter fun name => (Component.named? name).isNone

/-- What is said of such names. To be said they are put in order and joined, which only texts can be. -/
def unknownFault (room : Room) (names : List Datum) : Fault :=
  match names.mapM Datum.asText? with
  | some texts => .durationNames (sortNames texts)
  | none => if room.compares names then .argumentMismatch else .nestedTooDeep

def ofTable (room : Room) (t : Table) : Except Fault Duration := do
  if unknownIn t ≠ [] then throw (unknownFault room (unknownIn t))
  let count (unit : Component) := countOf room unit (t.get? unit.name)
  let years ← count .year
  let months ← count .month
  let days ← count .day
  let hours ← count .hour
  let minutes ← count .minute
  let seconds ← count .second
  return ⟨years, months, days, hours, minutes, seconds⟩

def ofAmounts (a : Amounts) : Duration :=
  ⟨a.years.getD 0, a.months.getD 0, a.days.getD 0, a.hours.getD 0, a.minutes.getD 0,
    a.seconds.getD 0⟩

/-- The duration that a node with six fields gives, be it a duration or the brief of a second. -/
def ofNode (room : Room) : Datum → Except Fault Duration
  | .node (.duration xs) | .node (.brief .second xs) =>
    ofTable room ((Component.all.map fun c => Datum.text c.name).zip xs)
  | _ => .error .missingPart

def ofText (p : Policy) (s : String) : Except Fault Duration := do
  match ← p.read s with
  | ⟨.duration a, []⟩ => return ofAmounts a
  | _ => throw (.notADuration s)

def ofDatum (p : Policy) : Datum → Except Fault Duration
  | .duration d => .ok d
  | .dict t => ofTable p.room t
  | .text s => ofText p s
  | .null => ofTable p.room []
  | d => .error (.durationType d.typeName)

def ofDatumOrCounts (p : Policy) (d : Datum) (counts : Table) : Except Fault Duration :=
  match d, counts with
  | .null, _ => ofTable p.room counts
  | d, [] => ofDatum p d
  | _, _ :: _ => .error .durationTwice

def datumName : String := "value"

def kindName : String := "cls"

/-- The duration that arguments denote: the datum in the first place, or by its name, and counts by
name. -/
def ofArguments (p : Policy) (first : Option Datum) (named : Table) : Except Fault Duration :=
  if named.has kindName then .error .argumentMismatch
  else match first, named.get? datumName with
    | some _, some _ => .error .argumentMismatch
    | some d, none => ofDatumOrCounts p d named
    | none, some d => ofDatumOrCounts p d (named.erase datumName)
    | none, none => ofDatumOrCounts p .null named

end Duration

end DateSpan
