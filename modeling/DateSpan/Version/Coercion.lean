import DateSpan.Expr.Resolve

/-! Versions from data: moments, days, epochs, texts and the parts of a request. -/

namespace DateSpan

open Calendar Decimal DateSpan.Expr

namespace Version

/-- The version at an epoch in milliseconds; the part of a second is dropped. -/
def ofEpoch (n : Int) : Except Fault Version :=
  if floatLimit ≤ n.natAbs then .error .tooLarge
  else if n < 0 then .error (.epochNegative (.int n))
  else match ofSeconds? (n / 1000) with
    | some v => .ok v
    | none => .error (.epochUnreachable (.int n))

def ofFloatEpoch (x : Binary64) : Except Fault Version :=
  match x.floorQuotient 1000 with
  | none => .error (.epochUnreachable (.float x))
  | some n =>
    if x.isNegative then .error (.epochNegative (.float x))
    else match ofSeconds? n with
      | some v => .ok v
      | none => .error (.epochUnreachable (.float x))

/-- The version of a moment that a clock shows; `offset` is how far its zone is ahead of UTC, in
microseconds. -/
def ofClock (m : Moment) (offset : Option Int) : Except Fault Version :=
  match offset with
  | none => ofMoment m
  | some offset =>
    match m.shiftMicro (-offset) with
    | some m' => ofMoment m'
    | none => .error .tooLarge

def ofText (p : Policy) (s : String) : Except Fault Version := do
  match ← p.read s with
  | ⟨.brief b, []⟩ =>
    let (first, _) ← b.ends false
    let _ ← p.resolving
    return first.version
  | _ => throw (.notAVersion s)

def ofDatum (p : Policy) : Datum → Except Fault Version
  | .version v => .ok v
  | .datetime m offset => ofClock m offset
  | .date midnight => ofMoment ⟨midnight, 0⟩
  | .int n => ofEpoch n
  | .float x => ofFloatEpoch x
  | .text s => ofText p s
  | d => .error (.versionType d.typeName)

end Version

def Calendar.Component.ofDatum (room : Room) (d : Datum) : Except Fault Component :=
  match Component.named? d with
  | some c => .ok c
  | none => do throw (.unknownComponent (← d.quotedAlone room))

theorem Calendar.Component.ofDatum_name (room : Room) (c : Component) :
    ofDatum room (.text c.name) = .ok c := by
  cases c <;> rfl

/-- The amount that a datum gives: a whole number from one on. -/
def amountOfDatum (room : Room) : Datum → Except Fault Nat
  | .int n => if n ≤ 0 then .error .amountNotPositive else .ok n.toNat
  | d => do throw (.amountType (← d.quotedAlone room))

namespace Version

def componentNamed (room : Room) (v : Version) (component : Datum) : Except Fault Nat :=
  (Component.ofDatum room component).map v.component

def incrementBy (room : Room) (v : Version) (component amount : Datum) : Except Fault Version := do
  let unit ← Component.ofDatum room component
  v.increment unit (← amountOfDatum room amount)

def decrementBy (room : Room) (v : Version) (component amount : Datum) : Except Fault Version := do
  let unit ← Component.ofDatum room component
  v.decrement unit (← amountOfDatum room amount)

end Version

end DateSpan
