import DateSpan.Anchor.Basic
import DateSpan.Range.Limit

/-! Ranges: contiguous spans of date versions between two optional anchors. -/

namespace DateSpan

namespace Bounds

def first (b : Bounds) : Limit :=
  match b.lower with
  | none => .below
  | some a => .second a.lowerSecond

def last (b : Bounds) : Limit :=
  match b.upper with
  | none => .above
  | some a => .second a.upperSecond

def isAbsent (b : Bounds) : Bool :=
  b.lower.isNone && b.upper.isNone

def reversed? (b : Bounds) : Option (Version × Version) :=
  match b.lower, b.upper with
  | some l, some u =>
    if u.version.seconds < l.version.seconds then some (l.version, u.version) else none
  | _, _ => none

/-- No second from 1970 on lies within the bounds. -/
def isHollow (b : Bounds) : Bool :=
  b.last.lt b.first || b.last.lt (.second 0)

end Bounds

/-- Bounds with an end, in order, around some second from 1970 on. -/
structure Range extends Bounds where
  present : toBounds.isAbsent = false
  ordered : toBounds.reversed? = none
  inhabited : toBounds.isHollow = false
  deriving DecidableEq, Repr

namespace Range

def contains (r : Range) (v : Version) : Bool :=
  r.first.le (.second v.seconds) && (Limit.second v.seconds).le r.last

def includes (r s : Range) : Bool :=
  r.first.le s.first && s.last.le r.last

def equals (r s : Range) : Bool :=
  r.first == s.first && r.last == s.last

def endsBefore (r s : Range) : Bool :=
  r.last.lt s.first

def startsAfter (r s : Range) : Bool :=
  s.last.lt r.first

def isSingular (r : Range) : Bool :=
  r.first == r.last

def count? (r : Range) : Option Int :=
  match r.first, r.last with
  | .second m, .second n => some (n - m + 1)
  | _, _ => none

def anchorTexts (r : Range) : List String :=
  (match r.lower with
    | some a => [(if a.isOpen then ">" else ">=") ++ a.version.text]
    | none => []) ++
  (match r.upper with
    | some a => [(if a.isOpen then "<" else "<=") ++ a.version.text]
    | none => [])

/-- A singular range is written as its version, any other as its anchors. -/
def text (r : Range) : String :=
  match r.isSingular, r.first with
  | true, .second n => Version.textOfSeconds n.toNat
  | _, _ => " ".intercalate r.anchorTexts

end Range

end DateSpan
