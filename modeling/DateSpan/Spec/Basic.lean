import DateSpan.Range.Basic

/-! Specs: ranges joined by OR, in the order given. -/

namespace DateSpan

structure Spec where
  ranges : List Range
  nonempty : ranges ≠ []
  deriving DecidableEq, Repr

namespace Spec

def contains (s : Spec) (v : Version) : Bool :=
  s.ranges.any fun r => r.contains v

/-- Some range of the spec includes the whole of `r`. -/
def includes (s : Spec) (r : Range) : Bool :=
  s.ranges.any fun x => x.includes r

def equals (s t : Spec) : Bool :=
  s.ranges.length == t.ranges.length &&
    (s.ranges.zip t.ranges).all fun (x, y) => x.equals y

def text (s : Spec) : String :=
  " || ".intercalate (s.ranges.map Range.text)

end Spec

end DateSpan
