import DateSpan.Datum.Basic
import DateSpan.Decimal.Shortest
import DateSpan.Text.Digit
import DateSpan.Text.Quoted

/-! Data as text: `shown` gives the form that error messages quote, `text` the plain form. -/

namespace DateSpan

open Calendar

def bracketed (open_ close : String) (items : List String) : String :=
  open_ ++ ", ".intercalate items ++ close

def parenthesised : List String → String
  | [s] => "(" ++ s ++ ",)"
  | items => bracketed "(" ")" items

def wrapped (name body : String) : String :=
  name ++ "(" ++ Text.quoted body ++ ")"

/-- A time zone that many microseconds ahead of UTC; whole days stand apart from the rest of a second
and of a day. -/
def zoneShown (offset : Int) : String :=
  if offset = 0 then "datetime.timezone.utc"
  else
    let seconds := offset / 1000000
    let parts := [("days", seconds / 86400), ("seconds", seconds % 86400),
      ("microseconds", offset % 1000000)].filter (·.2 ≠ 0)
    "datetime.timezone(datetime.timedelta" ++
      bracketed "(" ")" (parts.map fun (name, n) => name ++ "=" ++ toString n) ++ ")"

/-- The fields of a date and time; seconds and microseconds that are zero are left out at the end. -/
def datetimeShown (m : Moment) (offset : Option Int) : String :=
  let c := m.instant.civil
  let tail := if m.micro ≠ 0 then [c.second, m.micro] else if c.second ≠ 0 then [c.second] else []
  bracketed "datetime.datetime(" ")"
    (([c.year, c.month, c.day, c.hour, c.minute] ++ tail).map toString ++
      (offset.map fun o => "tzinfo=" ++ zoneShown o).toList)

def dateShown (midnight : Instant) : String :=
  let c := midnight.civil
  bracketed "datetime.date(" ")" ([c.year, c.month, c.day].map toString)

def offsetText (offset : Int) : String :=
  let micro := offset.natAbs % 1000000
  let seconds := offset.natAbs / 1000000
  let fraction := if micro = 0 then "" else "." ++ Text.zeroPadded 6 micro
  let tail := if micro = 0 ∧ seconds % 60 = 0 then ""
    else ":" ++ Text.zeroPadded 2 (seconds % 60) ++ fraction
  (if offset < 0 then "-" else "+") ++ Text.zeroPadded 2 (seconds / 3600) ++ ":"
    ++ Text.zeroPadded 2 (seconds / 60 % 60) ++ tail

def datetimeText (m : Moment) (offset : Option Int) : String :=
  let micro := if m.micro = 0 then "" else "." ++ Text.zeroPadded 6 m.micro
  (m.instant.civil.text.replace "T" " ") ++ micro ++ (offset.elim "" offsetText)

def dateText (midnight : Instant) : String :=
  (midnight.civil.text.take 10).toString

namespace Datum

mutual

/-- The form that messages quote: texts stand between quotes. -/
def shown : Datum → String
  | null => "None"
  | bool b => if b then "True" else "False"
  | int n => toString n
  | float x => x.text
  | text s => Text.quoted s
  | list items => bracketed "[" "]" (shownItems items)
  | tuple items => parenthesised (shownItems items)
  | dict entries => bracketed "\x7b" "\x7d" (shownEntries entries)
  | datetime m offset => datetimeShown m offset
  | date midnight => dateShown midnight
  | version v => wrapped "DateVersion" v.text
  | duration d => wrapped "DateVersionDuration" d.text
  | anchor a => wrapped "DateVersionRangeAnchor" a.text
  | range r => wrapped "DateVersionRange" r.text
  | spec s => wrapped "DateVersionSpec" s.text
  | node n => (shownParts n).text
  | mark m => m.shown

def shownParts : Expr.Node Datum → Expr.Node String
  | .brief precision xs => .brief precision (shownItems xs)
  | .duration xs => .duration (shownItems xs)
  | .lowerBounded bound op => .lowerBounded bound.shown op
  | .upperBounded bound op => .upperBounded bound.shown op
  | .fullyBounded lower upper => .fullyBounded lower.shown upper.shown
  | .relative base extent side => .relative base.shown extent.shown side
  | .single value => .single value.shown
  | .anyOf operands => .anyOf operands.shown

def shownItems : List Datum → List String
  | [] => []
  | d :: ds => d.shown :: shownItems ds

def shownEntries : List (Datum × Datum) → List String
  | [] => []
  | (k, d) :: rest => (k.shown ++ ": " ++ d.shown) :: shownEntries rest

end

mutual

/-- Whether every number of the shown form can be written. -/
def isShowable : Datum → Bool
  | int n => Text.isWritable n.natAbs
  | list items | tuple items => areShowable items
  | dict entries => areEntriesShowable entries
  | duration d => d.amounts.all fun (_, n) => Text.isWritable n
  | node n => arePartsShowable n
  | _ => true

def arePartsShowable : Expr.Node Datum → Bool
  | .brief _ xs | .duration xs => areShowable xs
  | .lowerBounded bound _ | .upperBounded bound _ => bound.isShowable
  | .fullyBounded lower upper => lower.isShowable && upper.isShowable
  | .relative base extent _ => base.isShowable && extent.isShowable
  | .single value => value.isShowable
  | .anyOf operands => operands.isShowable

def areShowable : List Datum → Bool
  | [] => true
  | d :: ds => d.isShowable && areShowable ds

def areEntriesShowable : List (Datum × Datum) → Bool
  | [] => true
  | (k, d) :: rest => k.isShowable && d.isShowable && areEntriesShowable rest

end

def isNested : Datum → Bool
  | list _ | tuple _ | dict _ | node _ => true
  | _ => false

def plain : Datum → String
  | text s => s
  | datetime m offset => datetimeText m offset
  | date midnight => dateText midnight
  | version v => v.text
  | duration d => d.text
  | anchor a => a.text
  | range r => r.text
  | spec s => s.text
  | mark m => m.text
  | d => d.shown

end Datum

end DateSpan
