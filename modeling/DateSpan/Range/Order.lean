import DateSpan.Settings.Policy

/-! Orders of ranges: ascending by their starts, descending by their ends. The rule for ties is
read only where the first comparison ties. -/

namespace DateSpan

namespace Range

def refined (ties : Except Fault TieRule) (first second : Ordering) : Except Fault Ordering :=
  match first with
  | .eq => do
    match ← ties with
    | .leave => return .eq
    | .refine => return second
  | o => .ok o

/-- Ascending order: a range that ends before another starts is less, overlapping ones go by their
first versions. -/
def order (ties : Except Fault TieRule) (r s : Range) : Except Fault Ordering :=
  if r.endsBefore s then .ok .lt
  else if r.startsAfter s then .ok .gt
  else refined ties (r.first.order s.first) (r.last.order s.last)

/-- Descending order: a range that ends before another starts is greater, overlapping ones go by
their last versions. -/
def reverseOrder (ties : Except Fault TieRule) (r s : Range) : Except Fault Ordering :=
  if r.endsBefore s then .ok .gt
  else if r.startsAfter s then .ok .lt
  else refined ties (s.last.order r.last) (s.first.order r.first)

def insertBy (cmp : Range → Range → Except Fault Ordering) (r : Range) :
    List Range → Except Fault (List Range)
  | [] => .ok [r]
  | s :: ss => do
    if (← cmp r s).isLE then return r :: s :: ss
    return s :: (← insertBy cmp r ss)

def sortBy (cmp : Range → Range → Except Fault Ordering) : List Range → Except Fault (List Range)
  | [] => .ok []
  | r :: rs => do insertBy cmp r (← sortBy cmp rs)

def sorted (ties : Except Fault TieRule) (ranges : List Range) : Except Fault (List Range) :=
  sortBy (order ties) ranges

def greatest? (ties : Except Fault TieRule) (ranges : List Range) : Except Fault (Option Range) :=
  (sortBy (order ties) ranges).map List.getLast?

def least? (ties : Except Fault TieRule) (ranges : List Range) : Except Fault (Option Range) :=
  (sortBy (reverseOrder ties) ranges).map List.getLast?

end Range

end DateSpan
