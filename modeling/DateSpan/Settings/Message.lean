import DateSpan.Fault

/-! Debug messages: a text in which each `%s` takes the next argument. -/

namespace DateSpan.Settings

/-- A text with its places filled in order; `%%` is a percent sign. Every argument must be used. A
place that is no `%s` is refused once it has an argument; one that ends early is refused at once, and
a name for an argument never fits. -/
def fill : List Char → List Datum → Except Fault (List Char)
  | [], [] => .ok []
  | [], _ :: _ => .error .argumentMismatch
  | '%' :: '%' :: cs, args => (fill cs args).map ('%' :: ·)
  | '%' :: 's' :: cs, d :: args => (fill cs args).map (d.plain.toList ++ ·)
  | ['%'], _ => .error .unusableValue
  | '%' :: '(' :: _, _ => .error .argumentMismatch
  | '%' :: _, [] => .error .argumentMismatch
  | '%' :: _, _ :: _ => .error .unusableValue
  | c :: cs, args => (fill cs args).map (c :: ·)

def message : Datum → List Datum → Except Fault String
  | d, [] => .ok d.plain
  | .text s, args => (fill s.toList args).map String.ofList
  | _, _ => .error .argumentMismatch

def printedCall (enabled : Bool) : List Datum → Except Fault (List String)
  | [] => .error .argumentMismatch
  | d :: args => if enabled then (message d args).map ([·]) else .ok []

def printed (enabled : Bool) (calls : List (List Datum)) : Except Fault (List String) :=
  (calls.mapM (printedCall enabled)).map List.flatten

end DateSpan.Settings
