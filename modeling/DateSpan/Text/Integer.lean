import DateSpan.Text.Digit

/-! Integers as texts: blanks around them, a sign, and digits that single underscores may part. -/

namespace DateSpan.Text

def isSpace (c : Char) : Bool :=
  let n := c.toNat
  (9 ≤ n && n ≤ 13) || n == 0x20 || n == 0x85 || n == 0xA0 || n == 0x1680
    || (0x2000 ≤ n && n ≤ 0x200A) || n == 0x2028 || n == 0x2029 || n == 0x202F || n == 0x205F
    || n == 0x3000

def trimSpaces (cs : List Char) : List Char :=
  ((cs.dropWhile isSpace).reverse.dropWhile isSpace).reverse

def plainDigits (cs : List Char) : List Char :=
  (trimSpaces cs).map fun c => (digit? c).elim c Nat.digitChar

/-- A text without the underscores that part its digits; none may stand elsewhere. -/
def unparted? (afterDigit : Bool) : List Char → Option (List Char)
  | [] => some []
  | '_' :: c :: cs => if afterDigit && c.isDigit then (unparted? true cs).map (c :: ·) else none
  | c :: cs => if c = '_' then none else (unparted? c.isDigit cs).map (c :: ·)

def natural? (cs : List Char) : Option Nat :=
  if cs ≠ [] ∧ cs.length ≤ maxDigits then (cs.mapM digit?).map ofDigits else none

def integer? (s : String) : Option Int := do
  match ← unparted? false (plainDigits s.toList) with
  | '-' :: cs => (natural? cs).map fun n => -(n : Int)
  | '+' :: cs => (natural? cs).map fun n => (n : Int)
  | cs => (natural? cs).map fun n => (n : Int)

end DateSpan.Text
