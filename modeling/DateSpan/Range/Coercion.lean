import DateSpan.Anchor.Coercion

/-! Ranges from bounds and from data. -/

namespace DateSpan

open DateSpan.Expr

namespace Range

/-- The range between bounds. Absent, reversed and hollow bounds are refused, in that order. -/
def ofBounds (b : Bounds) : Except Fault Range :=
  match hp : b.isAbsent, ho : b.reversed?, hi : b.isHollow with
  | true, _, _ => .error .rangeAbsent
  | false, some (lower, upper), _ => .error (.rangeReversed lower upper)
  | false, none, true => .error (.rangeHollow b)
  | false, none, false => .ok ⟨b, hp, ho, hi⟩

def ofEnds (p : Policy) (lower upper : Datum) : Except Fault Range := do
  let l ← Anchor.ofEnd p lower
  let u ← Anchor.ofEnd p upper
  ofBounds ⟨l, u⟩

def ofValue (p : Policy) (v : Value) : Except Fault Range := do
  ofBounds (← (v.resolve false).under p.resolving)

def ofText (p : Policy) (s : String) : Except Fault Range := do
  match ← p.read s with
  | ⟨v, []⟩ => ofValue p v
  | _ => throw (.notOneRange s)

def ofVersion (v : Version) : Except Fault Range :=
  ofBounds ⟨some (.closed v), some (.closed v)⟩

def ofDatum (p : Policy) : Datum → Except Fault Range
  | .null => .error .rangeAbsent
  | .range r => .ok r
  | .text s => ofText p s
  | .dict t =>
    if Table.has t "lower" || Table.has t "upper" then
      ofEnds p ((Table.get? t "lower").getD .null) ((Table.get? t "upper").getD .null)
    else .error .rangeWithoutEnds
  | d => do ofVersion (← Version.ofDatum p d)

/-- The range that a value or else two ends denote; not both may be given. -/
def make (p : Policy) (value lower upper : Datum) : Except Fault Range :=
  match value, lower, upper with
  | .null, _, _ => ofEnds p lower upper
  | _, .null, .null => ofDatum p value
  | _, _, _ => .error .rangeTwice

def edgeVersion : Limit → Except Fault (Option Version)
  | .second n => (Version.ofEpoch (1000 * n)).map some
  | _ => .ok none

def firstVersion (r : Range) : Except Fault (Option Version) :=
  edgeVersion r.first

def lastVersion (r : Range) : Except Fault (Option Version) :=
  edgeVersion r.last

/-- The overlap of two ranges, with closed anchors; none if they are apart. -/
def intersection (r s : Range) : Except Fault (Option Range) :=
  if r.startsAfter s || r.endsBefore s then .ok none
  else do
    let lower ← edgeVersion (r.first.max s.first)
    let upper ← edgeVersion (r.last.min s.last)
    let overlap ← ofBounds ⟨lower.map Anchor.closed, upper.map Anchor.closed⟩
    return some overlap

def includesDatum (p : Policy) (r : Range) : Datum → Except Fault Bool
  | .version v => .ok (r.contains v)
  | d => (ofDatum p d).map r.includes

end Range

end DateSpan
