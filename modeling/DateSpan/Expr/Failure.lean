import DateSpan.Expr.Alternatives
import DateSpan.Text.Layout

/-! Whole expression texts, and where the reading of one fails. -/

namespace DateSpan.Expr

open Text

inductive Expected
  | endOfText
  | dateVersion
  | value
  deriving DecidableEq, Repr

def Expected.text : Expected → String
  | .endOfText => "end of text"
  | .dateVersion => "date version"
  | .value => "value"

structure Mismatch where
  expected : Expected
  place : Place
  found : Option Char
  deriving DecidableEq, Repr

inductive Failure
  | mismatch (m : Mismatch)
  | longNumber
  deriving DecidableEq, Repr

/-- The mismatch at the first character of `rest` that is not blank, `rest` being the end of `cs`. -/
def Mismatch.at (cs rest : List Char) (expected : Expected) : Mismatch :=
  let ahead := skipBlank rest
  ⟨expected, placeAfter (cs.take (cs.length - ahead.length)), ahead.head?⟩

def Mismatch.ofNoValue (cs : List Char) : Mismatch :=
  match token lowerOp cs, token upperOp cs with
  | some (_, rest), _ => .at cs rest .dateVersion
  | none, some (_, rest) => .at cs rest .dateVersion
  | none, none => .at cs cs .value

/-- Reads a text without tabs as values. A number among them that is too long is refused before
anything that stands after them. -/
def readAll (cs : List Char) : Except Failure Expression :=
  match value cs with
  | none => .error (.mismatch (.ofNoValue cs))
  | some (first, rest) =>
    let (others, tail) := alternatives rest
    if hasLongNumber (cs.take (cs.length - tail.length)) then .error .longNumber
    else if skipBlank tail = [] then .ok ⟨first, others⟩
    else .error (.mismatch (.at cs tail .endOfText))

/-- Reads an expression. Places count the characters of the text with its tabs expanded. -/
def read (s : String) : Except Failure Expression :=
  readAll (expandTabs s.toList)

def report (s shown : String) : List String :=
  let cs := expandTabs s.toList
  let indent := cs.length - (skipBlank cs).length
  [padRight 16 "expression:" ++ String.ofList cs,
    String.ofList (List.replicate (16 + indent) ' ') ++ "^",
    String.ofList (List.replicate 16 ' ') ++ shown,
    "Parsed expression in * seconds"]

end DateSpan.Expr
