/-! Columns of a text: tab stops, padding, and the place of an offset. -/

namespace DateSpan.Text

def tabWidth : Nat := 8

/-- Spaces for tabs, from the given column on; a line end starts again at column zero. -/
def expandFrom : Nat → List Char → List Char
  | _, [] => []
  | column, c :: cs =>
    if c = '\t' then
      let gap := tabWidth - column % tabWidth
      List.replicate gap ' ' ++ expandFrom (column + gap) cs
    else if c = '\n' ∨ c = '\r' then c :: expandFrom 0 cs
    else c :: expandFrom (column + 1) cs

def expandTabs (cs : List Char) : List Char :=
  expandFrom 0 cs

/-- A place in a text: characters before it, and its line and column counted from one. -/
structure Place where
  offset : Nat
  line : Nat
  column : Nat
  deriving DecidableEq, Repr

def placeAfter (before : List Char) : Place where
  offset := before.length
  line := before.count '\n' + 1
  column := (before.reverse.takeWhile (· ≠ '\n')).length + 1

def zeroPadded (width n : Nat) : String :=
  let digits := Nat.toDigits 10 n
  String.ofList (List.replicate (width - digits.length) '0' ++ digits)

def padRight (width : Nat) (s : String) : String :=
  s ++ String.ofList (List.replicate (width - s.length) ' ')

def signed (n : Int) : String :=
  if 0 ≤ n then "+" ++ toString n else toString n

end DateSpan.Text
