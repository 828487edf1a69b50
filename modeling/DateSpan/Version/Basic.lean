import DateSpan.Calendar.Instant

/-! Date versions: the seconds of the years 1970 to 9999, in UTC. -/

namespace DateSpan

open Calendar

def epochStart : Nat := 62135596800

def versionSeconds : Nat := 253402300800

/-- A date version, as seconds since the start of 1970. -/
structure Version where
  seconds : Nat
  inCalendar : seconds < versionSeconds
  deriving DecidableEq, Repr

namespace Version

def ofSeconds? (n : Int) : Option Version :=
  if h : 0 ≤ n ∧ n.toNat < versionSeconds then some ⟨n.toNat, h.2⟩ else none

def ofInstant? (i : Instant) : Option Version :=
  ofSeconds? ((i.seconds : Int) - epochStart)

def instant (v : Version) : Instant :=
  ⟨v.seconds + epochStart, Nat.add_lt_add_right v.inCalendar epochStart⟩

def moment (v : Version) : Moment :=
  ⟨v.instant, 0⟩

def civil (v : Version) : Civil :=
  v.instant.civil

def epoch (v : Version) : Nat :=
  1000 * v.seconds

def component (v : Version) (c : Component) : Nat :=
  v.civil.component c

def textOfSeconds (n : Nat) : String :=
  (Civil.ofSeconds (n + epochStart)).text ++ "Z"

def text (v : Version) : String :=
  textOfSeconds v.seconds

def slug (v : Version) : String :=
  v.civil.digits

def order (v w : Version) : Ordering :=
  compare v.seconds w.seconds

structure Difference where
  component : Component → Int
  milliseconds : Int

def diff (v w : Version) : Difference where
  component c := (v.component c : Int) - w.component c
  milliseconds := (v.epoch : Int) - w.epoch

/-- Puts a version before the first that is later than it; equal versions keep their places. -/
def insertSorted (v : Version) : List Version → List Version
  | [] => [v]
  | w :: ws => if v.seconds ≤ w.seconds then v :: w :: ws else w :: insertSorted v ws

def sorted (versions : List Version) : List Version :=
  versions.foldr insertSorted []

def distinct (versions : List Version) : Nat :=
  versions.eraseDups.length

end Version

end DateSpan
