import DateSpan.Decimal.Binary64

/-! The shortest decimal text that reads back as a given binary64 number. -/

namespace DateSpan.Decimal

def compareScaled (a : Nat) (p : Int) (b : Nat) (q : Int) : Ordering :=
  compare (a * Nat.pow 10 p.toNat * Nat.pow 2 (-q).toNat)
    (b * Nat.pow 2 q.toNat * Nat.pow 10 (-p).toNat)

/-- The reals that round to a positive number, its ends and middle counted in quarters of its last
place; the ends belong to it when the significand is even. -/
structure RoundingInterval where
  low : Nat
  middle : Nat
  high : Nat
  exponent : Int
  closed : Bool

/-- The interval of a positive finite number. Below a power of two the spacing is halved. -/
def RoundingInterval.of (significand : Nat) (exponent : Int) : RoundingInterval where
  low := 4 * significand - (if significand = Nat.pow 2 52 ∧ -1074 < exponent then 1 else 2)
  middle := 4 * significand
  high := 4 * significand + 2
  exponent := exponent - 2
  closed := significand % 2 == 0

def RoundingInterval.contains (i : RoundingInterval) (a : Nat) (p : Int) : Bool :=
  match compareScaled a p i.low i.exponent, compareScaled a p i.high i.exponent with
  | .gt, .lt => true
  | .eq, _ => i.closed
  | _, .eq => i.closed
  | _, _ => false

def leadingPlace (m : Nat) (e : Int) : Int :=
  let scaled := m * Nat.pow 10 350 * Nat.pow 2 e.toNat / Nat.pow 2 (-e).toNat
  ((Nat.toDigits 10 scaled).length : Int) - 351

/-- The multiple of `10 ^ p` nearest to `m * 2 ^ e` that rounds to it, if one does; an exact tie
goes to the even digit. -/
def onGrid (m : Nat) (e p : Int) : Option Nat :=
  let i := RoundingInterval.of m e
  let below := m * Nat.pow 2 e.toNat * Nat.pow 10 (-p).toNat
    / (Nat.pow 2 (-e).toNat * Nat.pow 10 p.toNat)
  match i.contains below p, i.contains (below + 1) p with
  | false, false => none
  | true, false => some below
  | false, true => some (below + 1)
  | true, true =>
    match compareScaled (2 * below + 1) p (2 * m) e with
    | .gt => some below
    | .lt => some (below + 1)
    | .eq => some (if below % 2 = 0 then below else below + 1)

/-- The fewest digits that read back as `m * 2 ^ e`, and the place of the last one: grids from
`count` digits on, at most `fuel` of them. -/
def shortestFrom (m : Nat) (e : Int) : Nat → Nat → Nat × Int
  | 0, _ => (m, e)
  | fuel + 1, count =>
    let p := leadingPlace m e - count + 1
    match onGrid m e p with
    | some d => (d, p)
    | none => shortestFrom m e fuel (count + 1)

def shortest (m : Nat) (e : Int) : Nat × Int :=
  shortestFrom m e 17 1

def trimZeros : Nat → Nat → Int → Nat × Int
  | 0, d, p => (d, p)
  | fuel + 1, d, p => if d % 10 = 0 ∧ d ≠ 0 then trimZeros fuel (d / 10) (p + 1) else (d, p)

structure Style where
  least : Int
  most : Int
  exponentDigits : Nat

def numberStyle : Style := ⟨-4, 15, 2⟩

def positional (digits : List Char) (places : Int) : List Char :=
  if places ≤ 0 then ['0', '.'] ++ List.replicate (-places).toNat '0' ++ digits
  else
    let n := places.toNat
    if digits.length ≤ n then digits ++ List.replicate (n - digits.length) '0' ++ ['.', '0']
    else digits.take n ++ '.' :: digits.drop n

def scientific (style : Style) (digits : List Char) (exponent : Int) : List Char :=
  let mantissa := match digits with
    | d :: rest => if rest.isEmpty then [d] else d :: '.' :: rest
    | [] => []
  let magnitude := Nat.toDigits 10 exponent.natAbs
  mantissa ++ ['e', if exponent < 0 then '-' else '+'] ++
    List.replicate (style.exponentDigits - magnitude.length) '0' ++ magnitude

def magnitudeText (style : Style) (m : Nat) (e : Int) : List Char :=
  let (d, p) := shortest m e
  let (d, p) := trimZeros 20 d p
  let digits := Nat.toDigits 10 d
  let exponent := digits.length + p - 1
  if style.least ≤ exponent ∧ exponent ≤ style.most then positional digits (exponent + 1)
  else scientific style digits exponent

def Binary64.text : Binary64 → String
  | .nan => "nan"
  | .infinite negative => if negative then "-inf" else "inf"
  | .finite negative m e =>
    let magnitude := if m = 0 then ['0', '.', '0'] else magnitudeText numberStyle m e
    String.ofList (if negative then '-' :: magnitude else magnitude)

end DateSpan.Decimal
