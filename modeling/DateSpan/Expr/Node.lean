import DateSpan.Calendar.Basic

/-! Nodes of expression trees, and how they are shown. A node says what kind of part it is and what
stands in its places; a tree built by hand may have anything there. -/

namespace DateSpan.Expr

open Calendar

inductive Comparison
  | gt | ge | lt | le
  deriving DecidableEq, Repr

namespace Comparison

def isStrict : Comparison → Bool
  | gt | lt => true
  | ge | le => false

def symbol : Comparison → String
  | gt => ">"
  | ge => ">="
  | lt => "<"
  | le => "<="

def ofSymbol? (s : String) : Option Comparison :=
  [gt, ge, lt, le].find? fun op => op.symbol == s

def lower (strict : Bool) : Comparison :=
  if strict then gt else ge

def upper (strict : Bool) : Comparison :=
  if strict then lt else le

def name : Comparison → String
  | gt => "GT"
  | ge => "GE"
  | lt => "LT"
  | le => "LE"

end Comparison

/-- The side on which a duration extends its base: `after` is written `+`, `before` is `-`. -/
inductive Side
  | after | before
  deriving DecidableEq, Repr

namespace Side

def symbol : Side → String
  | after => "+"
  | before => "-"

def ofSymbol? (s : String) : Option Side :=
  [after, before].find? fun side => side.symbol == s

/-- The end of the span where the base of a duration stays. -/
def name : Side → String
  | after => "LOWER"
  | before => "UPPER"

end Side

inductive Mark
  | comparison (op : Comparison)
  | side (s : Side)
  | alternatives
  deriving DecidableEq, Repr

namespace Mark

def kind : Mark → String
  | comparison _ => "AnchorOp"
  | side _ => "DurationSide"
  | alternatives => "ExprOperator"

def name : Mark → String
  | comparison op => op.name
  | side s => s.name
  | alternatives => "OR"

def symbol : Mark → String
  | comparison op => op.symbol
  | side s => s.symbol
  | alternatives => "OR"

def text (m : Mark) : String :=
  m.kind ++ "." ++ m.name

def shown (m : Mark) : String :=
  "<" ++ m.text ++ ": '" ++ m.symbol ++ "'>"

end Mark

/-- One node, with `α` in its places. A brief has a field for each component down to its precision,
a duration has six. -/
inductive Node (α : Type)
  | brief (precision : Component) (fields : List α)
  | duration (counts : List α)
  | lowerBounded (bound : α) (op : Comparison)
  | upperBounded (bound : α) (op : Comparison)
  | fullyBounded (lower upper : α)
  | relative (base extent : α) (side : Side)
  | single (value : α)
  | anyOf (operands : α)
  deriving Repr

/-- The label of a brief says how much of the calendar it spans. -/
def briefLabel : Component → String
  | .second => "VersionNode"
  | .minute => "MinuteRangeNode"
  | .hour => "HourRangeNode"
  | .day => "DayRangeNode"
  | .month => "MonthRangeNode"
  | .year => "YearRangeNode"

def fieldNames : List String := ["Y", "M", "D", "h", "m", "s"]

namespace Node

variable {α : Type}

def label : Node α → String
  | brief precision _ => briefLabel precision
  | duration _ => "DurationNode"
  | lowerBounded .. => "LowerBoundedRangeNode"
  | upperBounded .. => "UpperBoundedRangeNode"
  | fullyBounded .. => "FullyBoundedRangeNode"
  | relative .. => "DurationRangeNode"
  | single _ => "IdentityExpr"
  | anyOf _ => "MultiOperandExpr"

def fields (shown : α → String) : Node α → List (String × String)
  | brief _ xs | duration xs => fieldNames.zip (xs.map shown)
  | lowerBounded bound op | upperBounded bound op =>
    [("bound", shown bound), ("anchor", (Mark.comparison op).shown)]
  | fullyBounded lower upper => [("lower", shown lower), ("upper", shown upper)]
  | relative base extent side =>
    [("anchor_expr", shown base), ("duration", shown extent), ("side", (Mark.side side).shown)]
  | single value => [("value", shown value)]
  | anyOf operands => [("operator", Mark.alternatives.shown), ("operands", shown operands)]

def text (n : Node String) : String :=
  n.label ++ "("
    ++ ", ".intercalate ((n.fields id).map fun (name, value) => name ++ "=" ++ value) ++ ")"

end Node

end DateSpan.Expr
