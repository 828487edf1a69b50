/-! Binary64 numbers: the value of a decimal numeral is the nearest of them, ties to even. -/

namespace DateSpan.Decimal

/-- A binary64 number. A finite one is `significand * 2 ^ exponent` with `significand < 2 ^ 53` and
`-1074 ≤ exponent ≤ 971`; it is normal when `2 ^ 52 ≤ significand`, else `exponent = -1074`. -/
inductive Binary64
  | nan
  | infinite (negative : Bool)
  | finite (negative : Bool) (significand : Nat) (exponent : Int)
  deriving DecidableEq, Repr

structure Numeral where
  negative : Bool
  digits : Nat
  exponent : Int
  deriving DecidableEq, Repr

namespace Binary64

def atScale (num den : Nat) (e : Int) : Nat × Nat :=
  if 0 ≤ e then (num, den * Nat.pow 2 e.toNat) else (num * Nat.pow 2 (-e).toNat, den)

def roundHalfEven (num den : Nat) : Nat :=
  let q := num / den
  let twice := 2 * (num % den)
  if den < twice ∨ (den = twice ∧ q % 2 = 1) then q + 1 else q

/-- The exponent that leaves 53 significant bits of a positive fraction, or the least one. -/
def exponentFor (num den : Nat) : Int :=
  let guess : Int := (num.log2 : Int) - (den.log2 : Int) - 52
  let (n, d) := atScale num den guess
  max (-1074) (if n < d * Nat.pow 2 52 then guess - 1 else guess)

def ofFraction (negative : Bool) (num den : Nat) : Binary64 :=
  if num = 0 then .finite negative 0 (-1074) else
  let e := exponentFor num den
  let (n, d) := atScale num den e
  let m := roundHalfEven n d
  let (m, e) := if m = Nat.pow 2 53 then (Nat.pow 2 52, e + 1) else (m, e)
  if 971 < e then .infinite negative else .finite negative m e

/-- The binary64 number nearest to a numeral. Numerals far outside the finite range are decided by
their length, so that no power of ten larger than needed is formed. -/
def ofNumeral (x : Numeral) : Binary64 :=
  let size : Int := (Nat.toDigits 10 x.digits).length + x.exponent
  if x.digits = 0 ∨ size < -330 then .finite x.negative 0 (-1074)
  else if 310 < size then .infinite x.negative
  else if 0 ≤ x.exponent then ofFraction x.negative (x.digits * Nat.pow 10 x.exponent.toNat) 1
  else ofFraction x.negative x.digits (Nat.pow 10 (-x.exponent).toNat)

def floorQuotient (k : Nat) : Binary64 → Option Int
  | .finite negative m e =>
    let n : Int := (m * Nat.pow 2 e.toNat : Nat)
    let d : Int := (k * Nat.pow 2 (-e).toNat : Nat)
    some (Int.fdiv (if negative then -n else n) d)
  | _ => none

def isNegative : Binary64 → Bool
  | .nan => false
  | .infinite negative => negative
  | .finite negative m _ => negative && m != 0

def isZero : Binary64 → Bool
  | .finite _ 0 _ => true
  | _ => false

end Binary64

def leadingDigits : List Char → Nat → Nat × Nat × List Char
  | [], n => (n, 0, [])
  | c :: cs, n =>
    if c.isDigit then
      let (value, count, rest) := leadingDigits cs (10 * n + (c.toNat - 48))
      (value, count + 1, rest)
    else (n, 0, c :: cs)

def leadingExponent (cs : List Char) : Int × List Char :=
  match cs with
  | c :: rest =>
    if c = 'e' ∨ c = 'E' then
      let (negative, body) := match rest with
        | '-' :: r => (true, r)
        | '+' :: r => (false, r)
        | r => (false, r)
      match leadingDigits body 0 with
      | (_, 0, _) => (0, cs)
      | (n, _, tail) => (if negative then -n else n, tail)
    else (0, cs)
  | [] => (0, [])

def leadingNumeral (negative : Bool) (cs : List Char) : Option (Numeral × List Char) :=
  let (whole, wholeCount, afterWhole) := leadingDigits cs 0
  let (digits, fractionCount, afterFraction) := match afterWhole with
    | '.' :: r => leadingDigits r whole
    | r => (whole, 0, r)
  if wholeCount + fractionCount = 0 then none else
  let (exponent, rest) := leadingExponent afterFraction
  some (⟨negative, digits, exponent - fractionCount⟩, rest)

end DateSpan.Decimal
