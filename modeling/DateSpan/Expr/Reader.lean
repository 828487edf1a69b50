import DateSpan.Expr.Expression
import DateSpan.Text.Digit

/-! Readers of expression texts: each takes a text and gives what it found at the front with the
text after it. There is a reader for each kind of value, and the kinds stand in order of choice. -/

namespace DateSpan.Expr

open Text

abbrev Reader (α : Type) := List Char → Option (α × List Char)

def isBlank (c : Char) : Bool :=
  c == ' ' || c == '\t' || c == '\n' || c == '\r'

def skipBlank (cs : List Char) : List Char :=
  cs.dropWhile isBlank

def digits : Nat → Reader (List Nat)
  | 0, cs => some ([], cs)
  | _ + 1, [] => none
  | n + 1, c :: cs => do
    let d ← digit? c
    let (ds, rest) ← digits n cs
    some (d :: ds, rest)

def number (n : Nat) : Reader Nat := fun cs => do
  let (ds, rest) ← digits n cs
  some (ofDigits ds, rest)

def field (mark : Char) : Reader Nat
  | [] => none
  | c :: cs => if c = mark then number 2 cs else none

def noDigit : List Char → Bool
  | [] => true
  | c :: _ => (digit? c).isNone

def dropZone : List Char → List Char
  | 'Z' :: cs => cs
  | cs => cs

def compactFields (year : Nat) : Reader Brief := fun cs => do
  let (mo, cs) ← number 2 cs
  let (d, cs) ← number 2 cs
  let (h, cs) ← number 2 cs
  let (mi, cs) ← number 2 cs
  let (s, cs) ← number 2 cs
  if noDigit cs then some (.second year mo d h mi s, cs) else none

/-- Each further field makes the brief longer, and the longest one is read; a lone year, as a compact
instant, has no digit after it. -/
def brief : Reader Brief := fun cs => do
  let (y, cs) ← number 4 cs
  match field '-' cs with
  | none => if noDigit cs then some (.year y, cs) else compactFields y cs
  | some (mo, cs) =>
    match field '-' cs with
    | none => some (.month y mo, cs)
    | some (d, cs) =>
      match field 'T' cs with
      | none => some (.day y mo d, cs)
      | some (h, cs) =>
        match field ':' cs with
        | none => some (.hour y mo d h, cs)
        | some (mi, cs) =>
          match field ':' cs with
          | none => some (.minute y mo d h mi, cs)
          | some (s, cs) => some (.second y mo d h mi s, dropZone cs)

def count (designator : Char) (cs : List Char) : Option Nat × List Char :=
  match digitRun cs with
  | (d :: ds, c :: rest) => if c = designator then (some (ofDigits (d :: ds)), rest) else (none, cs)
  | _ => (none, cs)

/-- The counts of hours, minutes and seconds after a `T`, which needs a digit after it. -/
def timeCounts (cs : List Char) : (Option Nat × Option Nat × Option Nat) × List Char :=
  match cs with
  | 'T' :: body =>
    if noDigit body then ((none, none, none), cs)
    else
      let (h, body) := count 'H' body
      let (m, body) := count 'M' body
      let (s, body) := count 'S' body
      ((h, m, s), body)
  | _ => ((none, none, none), cs)

def amounts : Reader Amounts
  | 'P' :: cs =>
    let (y, cs) := count 'Y' cs
    let (mo, cs) := count 'M' cs
    let (d, cs) := count 'D' cs
    let ((h, mi, s), cs) := timeCounts cs
    if y.isSome || mo.isSome || d.isSome || h.isSome || mi.isSome || s.isSome then
      some (⟨y, mo, d, h, mi, s⟩, cs)
    else none
  | _ => none

def token {α : Type} (read : Reader α) : Reader α := fun cs => read (skipBlank cs)

/-- An operator of lower bounds, and whether it is strict; the longer one is preferred. -/
def lowerOp : Reader Bool
  | '>' :: '=' :: cs => some (false, cs)
  | '>' :: cs => some (true, cs)
  | _ => none

def upperOp : Reader Bool
  | '<' :: '=' :: cs => some (false, cs)
  | '<' :: cs => some (true, cs)
  | _ => none

def bound (op : Reader Bool) : Reader Bound := fun cs => do
  let (strict, cs) ← token op cs
  let (b, cs) ← token brief cs
  some (⟨strict, b⟩, cs)

def dropComma (cs : List Char) : List Char :=
  match skipBlank cs with
  | ',' :: rest => rest
  | _ => cs

def bothBounds : Reader Value := fun cs => do
  let (lower, cs) ← bound lowerOp cs
  let (upper, cs) ← bound upperOp (dropComma cs)
  some (.between lower upper, cs)

def lowerBound : Reader Value := fun cs => do
  let (b, cs) ← bound lowerOp cs
  some (.lower b, cs)

def upperBound : Reader Value := fun cs => do
  let (b, cs) ← bound upperOp cs
  some (.upper b, cs)

def dots : Reader Unit
  | '.' :: '.' :: cs => some ((), cs)
  | _ => none

/-- Two briefs with two points between them: both ends belong to the span. -/
def span : Reader Value := fun cs => do
  let (a, cs) ← token brief cs
  let ((), cs) ← token dots cs
  let (b, cs) ← token brief cs
  some (.between ⟨false, a⟩ ⟨false, b⟩, cs)

def sideSign : Reader Side
  | '+' :: cs => some (.after, cs)
  | '-' :: cs => some (.before, cs)
  | _ => none

def relative : Reader Value := fun cs => do
  let (a, cs) ← token brief cs
  let (side, cs) ← token sideSign cs
  let (d, cs) ← token amounts cs
  some (.relative a side d, cs)

def briefValue : Reader Value := fun cs => do
  let (b, cs) ← token brief cs
  some (.brief b, cs)

def durationValue : Reader Value := fun cs => do
  let (d, cs) ← token amounts cs
  some (.duration d, cs)

/-- The first kind of value that can be read is kept, whatever follows it. -/
def value : Reader Value := fun cs =>
  bothBounds cs <|> lowerBound cs <|> upperBound cs <|> span cs <|> relative cs <|> briefValue cs
    <|> durationValue cs

def orSign : Reader Unit
  | '|' :: '|' :: cs => some ((), cs)
  | '|' :: cs => some ((), cs)
  | _ => none

def alternative : Reader Value := fun cs => do
  let ((), cs) ← token orSign cs
  value cs

end DateSpan.Expr
