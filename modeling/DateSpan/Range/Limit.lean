/-! Limits: whole seconds with an infinity on each side. -/

namespace DateSpan

inductive Limit
  | below
  | second (n : Int)
  | above
  deriving DecidableEq, Repr

namespace Limit

/-- `below` is least and `above` greatest. -/
def order : Limit → Limit → Ordering
  | .below, .below => .eq
  | .below, _ => .lt
  | .second _, .below => .gt
  | .second m, .second n => compare m n
  | .second _, .above => .lt
  | .above, .above => .eq
  | .above, _ => .gt

def lt (a b : Limit) : Bool :=
  (a.order b).isLT

def le (a b : Limit) : Bool :=
  (a.order b).isLE

def max (a b : Limit) : Limit :=
  if a.lt b then b else a

def min (a b : Limit) : Limit :=
  if b.lt a then b else a

end Limit

end DateSpan
