import DateSpan.Decimal.Reading
import DateSpan.Duration.Basic
import DateSpan.Expr.Expression
import DateSpan.Spec.Basic

/-! Data: whatever may be given where a version, a duration, an anchor, a range, a spec, an expression
tree or the value of a setting is wanted. -/

namespace DateSpan

open Calendar Decimal

inductive Datum
  | null
  | bool (b : Bool)
  | int (n : Int)
  | float (x : Binary64)
  | text (s : String)
  | list (items : List Datum)
  | tuple (items : List Datum)
  /-- Data under names; lists and tables are no names. -/
  | dict (entries : List (Datum × Datum))
  /-- A date and time; without an offset it is in UTC, else in a zone that many microseconds ahead. -/
  | datetime (local_ : Moment) (offset : Option Int)
  | date (midnight : Instant)
  | version (v : Version)
  | duration (d : Duration)
  | anchor (a : Anchor)
  | range (r : Range)
  | spec (s : Spec)
  | node (n : Expr.Node Datum)
  | mark (m : Expr.Mark)
  deriving Inhabited

instance : Coe String Datum := ⟨.text⟩

namespace Datum

/-! ## Names

Numbers of one value are the same name, and so are tuples of the same names. -/

/-- What tells names apart. -/
inductive Atom
  | opening (kind : String)
  | closing
  | null
  | int (n : Int)
  | float (x : Binary64)
  | text (s : String)
  | clock (m : Moment)
  | microsecond (n : Int)
  | day (midnight : Instant)
  | version (v : Version)
  | anchor (a : Anchor)
  | span (first last : Limit)
  | mark (m : Expr.Mark)
  deriving DecidableEq

namespace Atom

def ofFloat (x : Binary64) : Atom :=
  if x.isZero then int 0
  else match x.floorQuotient 1 with
    | some n => if Binary64.ofInt n = x then int n else float x
    | none => float x

def ofRange (r : Range) : Atom :=
  span r.first r.last

def ofDatetime (m : Moment) : Option Int → Atom
  | none => clock m
  | some offset => microsecond (1000000 * m.instant.seconds + m.micro - offset)

def enclosed (kind : String) (atoms : List Atom) : List Atom :=
  opening kind :: atoms ++ [closing]

end Atom

mutual

def atoms : Datum → List Atom
  | null => [.null]
  | bool b => [.int (if b then 1 else 0)]
  | int n => [.int n]
  | float x => [.ofFloat x]
  | text s => [.text s]
  | list items => Atom.enclosed "list" (atomsOfItems items)
  | tuple items => Atom.enclosed "tuple" (atomsOfItems items)
  | dict entries => Atom.enclosed "dict" (atomsOfEntries entries)
  | datetime m offset => [.ofDatetime m offset]
  | date midnight => [.day midnight]
  | version v => [.version v]
  | duration d => Atom.enclosed "tuple" (d.amounts.map fun (_, n) => .int n)
  | anchor a => [.anchor a]
  | range r => [.ofRange r]
  | spec s => Atom.enclosed "spec" (s.ranges.map .ofRange)
  | node n => Atom.enclosed "tuple" (atomsOfParts n)
  | mark m => [.mark m]

def atomsOfParts : Expr.Node Datum → List Atom
  | .brief _ xs | .duration xs => atomsOfItems xs
  | .lowerBounded bound op | .upperBounded bound op => bound.atoms ++ [.mark (.comparison op)]
  | .fullyBounded lower upper => lower.atoms ++ upper.atoms
  | .relative base extent side => base.atoms ++ extent.atoms ++ [.mark (.side side)]
  | .single value => value.atoms
  | .anyOf operands => .mark .alternatives :: operands.atoms

def atomsOfItems : List Datum → List Atom
  | [] => []
  | d :: ds => d.atoms ++ atomsOfItems ds

def atomsOfEntries : List (Datum × Datum) → List Atom
  | [] => []
  | (k, d) :: rest => k.atoms ++ d.atoms ++ atomsOfEntries rest

end

def Same (d e : Datum) : Prop :=
  d.atoms = e.atoms

instance (d e : Datum) : Decidable (d.Same e) :=
  inferInstanceAs (Decidable (d.atoms = e.atoms))

theorem same_refl (d : Datum) : d.Same d := rfl

theorem Same.symm {d e : Datum} (h : d.Same e) : e.Same d := Eq.symm h

theorem Same.trans {d e f : Datum} (h : d.Same e) (h' : e.Same f) : d.Same f := Eq.trans h h'

theorem same_text {s t : String} : Same (text s) (text t) ↔ s = t := by
  simp [Same, atoms]

def asText? : Datum → Option String
  | text s => some s
  | _ => none

mutual

def isHashable : Datum → Bool
  | list _ | dict _ => false
  | tuple items => areHashable items
  | node n => arePartsHashable n
  | _ => true

def arePartsHashable : Expr.Node Datum → Bool
  | .brief _ xs | .duration xs => areHashable xs
  | .lowerBounded bound _ | .upperBounded bound _ => bound.isHashable
  | .fullyBounded lower upper => lower.isHashable && upper.isHashable
  | .relative base extent _ => base.isHashable && extent.isHashable
  | .single value => value.isHashable
  | .anyOf operands => operands.isHashable

def areHashable : List Datum → Bool
  | [] => true
  | d :: ds => d.isHashable && areHashable ds

end

end Datum

/-- Data under names, in the order in which the names were first given. -/
abbrev Table := List (Datum × Datum)

namespace Table

def get? (t : Table) (name : Datum) : Option Datum :=
  match t with
  | [] => none
  | (k, v) :: rest => if k.Same name then some v else get? rest name

def has (t : Table) (name : Datum) : Bool :=
  (t.get? name).isSome

/-- Gives a name its datum: in its place if it is there, else at the end. -/
def put (t : Table) (name d : Datum) : Table :=
  match t with
  | [] => [(name, d)]
  | (k, v) :: rest => if k.Same name then (k, d) :: rest else (k, v) :: put rest name d

def erase (t : Table) (name : Datum) : Table :=
  t.filter fun (k, _) => ¬ k.Same name

def names (t : Table) : List Datum :=
  t.map (·.1)

theorem get?_put (t : Table) (name other d : Datum) :
    (t.put name d).get? other = if name.Same other then some d else t.get? other := by
  induction t with
  | nil => rfl
  | cons e rest ih =>
    obtain ⟨k, v⟩ := e
    by_cases h : k.Same name
    · have hother : k.Same other ↔ name.Same other := ⟨h.symm.trans, h.trans⟩
      rw [put, if_pos h]
      by_cases hname : name.Same other
      · rw [get?, if_pos (hother.mpr hname), if_pos hname]
      · rw [get?, get?, if_neg (mt hother.mp hname), if_neg (mt hother.mp hname), if_neg hname]
    · rw [put, if_neg h, get?, get?, ih]
      by_cases hk : k.Same other
      · rw [if_pos hk, if_pos hk, if_neg fun hn => h (hk.trans hn.symm)]
      · rw [if_neg hk, if_neg hk]

end Table

namespace Datum

def typeName : Datum → String
  | null => "NoneType"
  | bool _ => "bool"
  | int _ => "int"
  | float _ => "float"
  | text _ => "str"
  | list _ => "list"
  | tuple _ => "tuple"
  | dict _ => "dict"
  | datetime .. => "datetime"
  | date _ => "date"
  | version _ => "DateVersion"
  | duration _ => "DateVersionDuration"
  | anchor _ => "DateVersionRangeAnchor"
  | range _ => "DateVersionRange"
  | spec _ => "DateVersionSpec"
  | node n => n.label
  | mark m => m.kind

/-- The word for the kind of a datum where a whole number is wanted; dates tell their module. -/
def typePath (d : Datum) : String :=
  match d with
  | datetime .. | date _ => "datetime." ++ d.typeName
  | d => d.typeName

def truthy : Datum → Bool
  | null => false
  | bool b => b
  | int n => n != 0
  | float x => !x.isZero
  | text s => s != ""
  | list items => !items.isEmpty
  | tuple items => !items.isEmpty
  | dict entries => !entries.isEmpty
  | duration d => !d.isZero
  | _ => true

/-- The data of a tuple: a plain one, the counts of a duration, or what stands in a node. -/
def tupleItems? : Datum → Option (List Datum)
  | tuple items => some items
  | duration d => some (d.amounts.map fun (_, n) => int n)
  | node (.brief _ xs) | node (.duration xs) => some xs
  | node (.lowerBounded bound op) | node (.upperBounded bound op) =>
    some [bound, mark (.comparison op)]
  | node (.fullyBounded lower upper) => some [lower, upper]
  | node (.relative base extent side) => some [base, extent, mark (.side side)]
  | node (.single value) => some [value]
  | node (.anyOf operands) => some [mark .alternatives, operands]
  | _ => none

mutual

/-- A datum laid over another: tables are merged name by name, anything else is replaced. -/
def overlay : Option Datum → Datum → Datum
  | some (.dict base), .dict entries => .dict (mergeEntries base entries)
  | _, d => d

def mergeEntries (base : List (Datum × Datum)) : List (Datum × Datum) → List (Datum × Datum)
  | [] => base
  | (k, d) :: rest => mergeEntries (Table.put base k (overlay (Table.get? base k) d)) rest

end

end Datum

def Table.merge (base upper : Table) : Table :=
  Datum.mergeEntries base upper

namespace Expr

def Brief.node (b : Brief) : Datum :=
  .node (.brief b.precision (b.fields.map fun (n : Nat) => Datum.int n))

def Amounts.node (a : Amounts) : Datum :=
  .node (.duration (a.counts.map fun n => n.elim Datum.null fun (n : Nat) => Datum.int n))

def Bound.lowerNode (b : Bound) : Datum :=
  .node (.lowerBounded b.edge.node (.lower b.strict))

def Bound.upperNode (b : Bound) : Datum :=
  .node (.upperBounded b.edge.node (.upper b.strict))

def Value.node : Value → Datum
  | .brief b => b.node
  | .duration a => a.node
  | .lower b => b.lowerNode
  | .upper b => b.upperNode
  | .between l u => .node (.fullyBounded l.lowerNode u.upperNode)
  | .relative base side extent => .node (.relative base.node extent.node side)

/-- An expression as a tree: a lone value under `single`, more under `anyOf`. -/
def Expression.node (e : Expression) : Datum :=
  if e.others.isEmpty then .node (.single e.first.node)
  else .node (.anyOf (.tuple (e.values.map Value.node)))

end Expr

end DateSpan
