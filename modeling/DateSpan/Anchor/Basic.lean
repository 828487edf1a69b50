import DateSpan.Version.Basic

/-! Anchors: the ends of ranges, which include their version or exclude it. -/

namespace DateSpan

/-- One end of a range. An open anchor excludes its version. -/
structure Anchor where
  version : Version
  isOpen : Bool
  deriving DecidableEq, Repr

namespace Anchor

def closed (v : Version) : Anchor :=
  ⟨v, false⟩

def flipped (a : Anchor) : Anchor :=
  ⟨a.version, !a.isOpen⟩

def gap (a : Anchor) : Int :=
  if a.isOpen then 1 else 0

def lowerSecond (a : Anchor) : Int :=
  a.version.seconds + a.gap

def upperSecond (a : Anchor) : Int :=
  a.version.seconds - a.gap

def text (a : Anchor) : String :=
  if a.isOpen then a.version.text ++ " (open)" else a.version.text

end Anchor

structure Bounds where
  lower : Option Anchor
  upper : Option Anchor
  deriving DecidableEq, Repr

end DateSpan
