import DateSpan.Range.Coercion

/-! Specs from data: texts with alternatives, and lists of whatever denotes a range. -/

namespace DateSpan

open DateSpan.Expr

namespace Spec

def ofRanges (ranges : List Range) : Except Fault Spec :=
  if h : ranges = [] then .error .specEmpty else .ok ⟨ranges, h⟩

def ofText (p : Policy) (s : String) : Except Fault Spec := do
  let e ← p.read s
  ofRanges (← e.values.mapM (Range.ofValue p))

def ofData (p : Policy) (items : List Datum) : Except Fault Spec := do
  ofRanges (← items.mapM (Range.ofDatum p))

def itemsOf? : Datum → Option (List Datum)
  | .list items => some items
  | .spec s => some (s.ranges.map .range)
  | d => d.tupleItems?

/-- The spec of the data in a datum; `other` is the fault if no data stand in it. -/
def ofItems (p : Policy) (d : Datum) (other : Fault) : Except Fault Spec :=
  match itemsOf? d with
  | some items => ofData p items
  | none => .error other

def ofGiven (p : Policy) : Datum → Except Fault Spec
  | .text _ => .error (.rangesType "str")
  | .dict _ => .error (.rangesType "dict")
  | d => ofItems p d (.rangesNotIterable d.typeName)

def ofDatum (p : Policy) : Datum → Except Fault Spec
  | .spec s => .ok s
  | .range r => ofRanges [r]
  | .text s => ofText p s
  | .dict t =>
    match Table.get? t "ranges" with
    | some d => ofGiven p d
    | none => .error .specWithoutRanges
  | d => ofItems p d (.specType d.typeName)

def includesDatum (p : Policy) (s : Spec) : Datum → Except Fault Bool
  | .range r => .ok (s.includes r)
  | d => (Version.ofDatum p d).map s.contains

end Spec

end DateSpan
