import DateSpan.Datum.Basic
import DateSpan.Text.Digit

/-! JSON texts as data. Beside the standard forms the words `NaN`, `Infinity` and `-Infinity` are
numbers; a name that comes twice keeps its last value. -/

namespace DateSpan.Settings.Json

open Decimal

def isBlank (c : Char) : Bool :=
  c == ' ' || c == '\t' || c == '\n' || c == '\r'

def skipBlank (cs : List Char) : List Char :=
  cs.dropWhile isBlank

def after? (word : String) (cs : List Char) : Option (List Char) :=
  if word.toList.isPrefixOf cs then some (cs.drop word.length) else none

def hexValue? (c : Char) : Option Nat :=
  if '0' ≤ c ∧ c ≤ '9' then some (c.toNat - '0'.toNat)
  else if 'a' ≤ c ∧ c ≤ 'f' then some (c.toNat - 'a'.toNat + 10)
  else if 'A' ≤ c ∧ c ≤ 'F' then some (c.toNat - 'A'.toNat + 10)
  else none

def hexUnit? : List Char → Option (Nat × List Char)
  | a :: b :: c :: d :: cs => do
    let n := 4096 * (← hexValue? a) + 256 * (← hexValue? b) + 16 * (← hexValue? c) + (← hexValue? d)
    some (n, cs)
  | _ => none

/-- The character after a backslash and `u`. Two units that form a pair give one character; a unit
of a pair that stands alone is replaced. -/
def unicode? (cs : List Char) : Option (Char × List Char) := do
  let (high, rest) ← hexUnit? cs
  let single := (Char.ofNat (if 0xD800 ≤ high ∧ high ≤ 0xDFFF then 0xFFFD else high), rest)
  if 0xD800 ≤ high ∧ high ≤ 0xDBFF then
    match rest with
    | '\\' :: 'u' :: more =>
      let (low, tail) ← hexUnit? more
      if 0xDC00 ≤ low ∧ low ≤ 0xDFFF then
        some (Char.ofNat (0x10000 + 1024 * (high - 0xD800) + (low - 0xDC00)), tail)
      else some single
    | _ => some single
  else some single

def escaped? : Char → Option Char
  | '"' => some '"'
  | '\\' => some '\\'
  | '/' => some '/'
  | 'b' => some '\x08'
  | 'f' => some '\x0c'
  | 'n' => some '\n'
  | 'r' => some '\r'
  | 't' => some '\t'
  | _ => none

/-- The rest of a string after its opening quote; the fuel bounds its length. -/
def stringTail : Nat → List Char → Option (List Char × List Char)
  | 0, _ => none
  | _, [] => none
  | _, '"' :: cs => some ([], cs)
  | fuel + 1, '\\' :: 'u' :: cs => do
    let (c, rest) ← unicode? cs
    let (s, tail) ← stringTail fuel rest
    some (c :: s, tail)
  | fuel + 1, '\\' :: e :: cs => do
    let c ← escaped? e
    let (s, tail) ← stringTail fuel cs
    some (c :: s, tail)
  | fuel + 1, c :: cs =>
    if c = '\\' ∨ c.toNat < 0x20 then none
    else do
      let (s, tail) ← stringTail fuel cs
      some (c :: s, tail)

def string? (cs : List Char) : Option (String × List Char) := do
  let (s, rest) ← stringTail (cs.length + 1) cs
  some (String.ofList s, rest)

/-- A number: whole ones are integers, which may not have too many digits, and any with a fraction or
an exponent are binary. -/
def number? (cs : List Char) : Option (Datum × List Char) :=
  let (negative, body) := match cs with
    | '-' :: r => (true, r)
    | r => (false, r)
  match body, leadingDigits body 0 with
  | '0' :: d :: _, (_, _ + 2, _) => if d.isDigit then some (.int 0, body.drop 1) else none
  | _, (_, 0, _) => none
  | _, (whole, wholeCount, rest) =>
    let (digits, places, rest) := match rest with
      | '.' :: r =>
        match leadingDigits r whole with
        | (_, 0, _) => (whole, 0, rest)
        | found => found
      | _ => (whole, 0, rest)
    let (exponent, tail) := leadingExponent rest
    if places = 0 ∧ tail.length = rest.length then
      if Text.maxDigits < wholeCount then none
      else some (.int (if negative then -(whole : Int) else whole), rest)
    else some (.float (.ofNumeral ⟨negative, digits, exponent - places⟩), tail)

inductive Failure
  | malformed
  | tooDeep
  deriving DecidableEq, Repr

def found {α : Type} : Option α → Except Failure α
  | some a => .ok a
  | none => .error .malformed

def atom? (cs : List Char) : Option (Datum × List Char) :=
  match cs with
  | '"' :: r => (string? r).map fun (s, rest) => (.text s, rest)
  | _ =>
    ((after? "null" cs).map fun r => (.null, r))
      <|> ((after? "true" cs).map fun r => (.bool true, r))
      <|> ((after? "false" cs).map fun r => (.bool false, r))
      <|> ((after? "NaN" cs).map fun r => (.float .nan, r))
      <|> ((after? "Infinity" cs).map fun r => (.float (.infinite false), r))
      <|> ((after? "-Infinity" cs).map fun r => (.float (.infinite true), r))
      <|> number? cs

def memberName? (cs : List Char) : Option (String × List Char) :=
  match skipBlank cs with
  | '"' :: r => do
    let (name, rest) ← string? r
    match skipBlank rest with
    | ':' :: more => some (name, skipBlank more)
    | _ => none
  | _ => none

mutual

/-- A value at the front of a text, with the text after it. The first failure counts: a list or table
fails where it opens if no more than `depth` may stand within each other. The fuel bounds the nesting
and the count of elements. -/
def value (fuel depth : Nat) (cs : List Char) : Except Failure (Datum × List Char) :=
  match fuel with
  | 0 => .error .malformed
  | fuel + 1 =>
    match cs, depth with
    | '[' :: _, 0 | '\x7b' :: _, 0 => .error .tooDeep
    | '[' :: r, depth + 1 =>
      match skipBlank r with
      | ']' :: rest => .ok (.list [], rest)
      | r => (elements fuel depth r).map fun (items, rest) => (.list items, rest)
    | '\x7b' :: r, depth + 1 =>
      match skipBlank r with
      | '\x7d' :: rest => .ok (.dict [], rest)
      | r => (members fuel depth [] r).map fun (entries, rest) => (.dict entries, rest)
    | cs, _ => found (atom? cs)

def elements (fuel depth : Nat) (cs : List Char) : Except Failure (List Datum × List Char) :=
  match fuel with
  | 0 => .error .malformed
  | fuel + 1 => do
    let (d, rest) ← value fuel depth (skipBlank cs)
    match skipBlank rest with
    | ',' :: more =>
      let (ds, tail) ← elements fuel depth more
      return (d :: ds, tail)
    | ']' :: tail => return ([d], tail)
    | _ => throw .malformed

def members (fuel depth : Nat) (before : Table) (cs : List Char) :
    Except Failure (Table × List Char) :=
  match fuel with
  | 0 => .error .malformed
  | fuel + 1 => do
    let (name, rest) ← found (memberName? cs)
    let (d, rest) ← value fuel depth rest
    match skipBlank rest with
    | ',' :: more => members fuel depth (before.put name d) more
    | '\x7d' :: tail => return (before.put name d, tail)
    | _ => throw .malformed

end

/-- The datum that a whole text denotes, if no more than `depth` lists and tables stand within each
other. A character takes at most two units of fuel. -/
def read (depth : Nat) (s : String) : Except Failure Datum := do
  let cs := skipBlank s.toList
  let (d, rest) ← value (2 * cs.length + 2) depth cs
  if skipBlank rest = [] then return d
  throw .malformed

end DateSpan.Settings.Json
