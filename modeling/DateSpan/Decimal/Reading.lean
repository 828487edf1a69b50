import DateSpan.Decimal.Binary64
import DateSpan.Text.Integer

/-! Binary64 numbers from texts. -/

namespace DateSpan.Decimal.Binary64

def ofPlain? (cs : List Char) : Option Binary64 :=
  let (negative, body) := match cs with
    | '-' :: r => (true, r)
    | '+' :: r => (false, r)
    | r => (false, r)
  let word := String.ofList (body.map Char.toLower)
  if word = "nan" then some .nan
  else if word = "inf" ∨ word = "infinity" then some (.infinite negative)
  else match leadingNumeral negative body with
    | some (x, []) => some (.ofNumeral x)
    | _ => none

/-- The number that a whole text denotes, blanks around it and underscores between digits left out. -/
def ofText? (s : String) : Option Binary64 := do
  ofPlain? (← Text.unparted? false (Text.plainDigits s.toList))

def ofInt (n : Int) : Binary64 :=
  ofNumeral ⟨n < 0, n.natAbs, 0⟩

end DateSpan.Decimal.Binary64
