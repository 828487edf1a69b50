import DateSpan.Duration.Coercion
import DateSpan.Version.Arithmetic

/-! From expressions to bounds. A resolution keeps, beside its outcome, the nodes that it completed. -/

namespace DateSpan.Expr

open Calendar

structure Completion where
  label : String
  bounds : Bounds

def Completion.text (c : Completion) : String :=
  Text.padRight 24 c.label ++ (c.bounds.lower.elim "-inf" Anchor.text) ++ " .. "
    ++ (c.bounds.upper.elim "+inf" Anchor.text)

structure Traced (α : Type) where
  completed : List Completion
  outcome : Except Fault α

namespace Traced

def lift {α : Type} (x : Except Fault α) : Traced α := ⟨[], x⟩

def fail {α : Type} (f : Fault) : Traced α := ⟨[], .error f⟩

def bind {α β : Type} (x : Traced α) (f : α → Traced β) : Traced β :=
  match x.outcome with
  | .error e => ⟨x.completed, .error e⟩
  | .ok a => ⟨x.completed ++ (f a).completed, (f a).outcome⟩

instance : Monad Traced where
  pure a := ⟨[], .ok a⟩
  bind := bind

def note (label : String) (bounds : Bounds) : Traced Bounds :=
  ⟨[⟨label, bounds⟩], .ok bounds⟩

/-- The outcome under a switch that is read at each completion: a switch that cannot be read fails
the first of them. -/
def under {α : Type} (switch : Except Fault Bool) (t : Traced α) : Except Fault α :=
  match switch, t.completed with
  | .error f, _ :: _ => .error f
  | _, _ => t.outcome

def lines {α : Type} (switch : Except Fault Bool) (t : Traced α) : List String :=
  match switch with
  | .ok true => t.completed.map Completion.text
  | _ => []

@[simp] theorem outcome_pure {α : Type} (a : α) : (pure a : Traced α).outcome = .ok a := rfl

@[simp] theorem outcome_lift {α : Type} (x : Except Fault α) : (lift x).outcome = x := rfl

@[simp] theorem outcome_fail {α : Type} (f : Fault) : (fail f : Traced α).outcome = .error f := rfl

@[simp] theorem outcome_note (label : String) (b : Bounds) : (note label b).outcome = .ok b := rfl

@[simp] theorem outcome_bind {α β : Type} (x : Traced α) (f : α → Traced β) :
    (x >>= f).outcome = x.outcome >>= fun a => (f a).outcome := by
  change (Traced.bind x f).outcome = _
  unfold Traced.bind
  cases x.outcome <;> rfl

end Traced

/-- The ends of the span from `first` on, of one calendar unit. With `minimum`, a span of more than a
second ends at the start of the next unit, open, else at its last second, closed. -/
def spanEnds (minimum : Bool) (unit : Component) (first : Version) :
    Except Fault (Anchor × Anchor) := do
  if unit = .second then return (.closed first, .closed first)
  if minimum then
    let next ← first.increment unit 1
    return (.closed first, ⟨next, true⟩)
  let last ← first.lastOf unit
  return (.closed first, .closed last)

/-! ## Rules

Each gives the bounds of a node from those of its parts, and notes the node as completed. -/

def briefRule (unit : Component) (ends : Anchor × Anchor) : Traced Bounds :=
  .note (briefLabel unit) ⟨some ends.1, some ends.2⟩

def required : Option Anchor → Traced Anchor
  | some a => pure a
  | none => .fail .missingPart

/-- A strict bound starts at the far edge of its operand, whose own openness is turned around. -/
def lowerRule (strict : Bool) (limits : Bounds) : Traced Bounds := do
  let lower ← if strict then (some ·.flipped) <$> required limits.upper else pure limits.lower
  .note "LowerBoundedRangeNode" ⟨lower, none⟩

def upperRule (strict : Bool) (limits : Bounds) : Traced Bounds := do
  let upper ← if strict then (some ·.flipped) <$> required limits.lower else pure limits.upper
  .note "UpperBoundedRangeNode" ⟨none, upper⟩

/-- In a pair of bounds each operand gives its outer edge, and its operator alone decides whether
that edge is open. -/
def betweenRule (lower : Anchor) (lowerStrict : Bool) (upper : Anchor) (upperStrict : Bool) :
    Traced Bounds :=
  .note "FullyBoundedRangeNode"
    ⟨some ⟨lower.version, lowerStrict⟩, some ⟨upper.version, upperStrict⟩⟩

/-- A duration extends the effective edge on its side. -/
def relativeRule (side : Side) (limits : Bounds) (d : Duration) : Traced Bounds := do
  match side with
  | .after =>
    let edge ← required limits.upper
    let version ← .lift (edge.upperEdge >>= (·.addDuration d))
    .note "DurationRangeNode" ⟨limits.lower, some (.closed version)⟩
  | .before =>
    let edge ← required limits.lower
    let version ← .lift (edge.lowerEdge >>= (·.minusDuration d))
    .note "DurationRangeNode" ⟨some (.closed version), limits.upper⟩

/-! ## Expressions that were read -/

namespace Brief

def start : Brief → Except Fault Version
  | second y mo d h mi s => Version.ofFields y mo d h mi s
  | minute y mo d h mi => Version.ofFields y mo d h mi 0
  | hour y mo d h => Version.ofFields y mo d h 0 0
  | day y mo d => Version.ofFields y mo d 0 0 0
  | month y mo => Version.ofFields y mo 1 0 0 0
  | year y => Version.ofFields y 1 1 0 0 0

def ends (minimum : Bool) (b : Brief) : Except Fault (Anchor × Anchor) := do
  spanEnds minimum b.precision (← b.start)

def resolve (minimum : Bool) (b : Brief) : Traced Bounds := do
  briefRule b.precision (← .lift (b.ends minimum))

end Brief

def Value.resolve (minimum : Bool) : Value → Traced Bounds
  | .brief b => b.resolve minimum
  | .duration a => .fail (.notARange a.node)
  | .lower b => do lowerRule b.strict (← b.edge.resolve minimum)
  | .upper b => do upperRule b.strict (← b.edge.resolve minimum)
  | .between l u => do
    let first ← required (← l.edge.resolve false).lower
    let last ← required (← u.edge.resolve false).upper
    betweenRule first l.strict last u.strict
  | .relative base side extent => do
    relativeRule side (← base.resolve minimum) (Duration.ofAmounts extent)

def Expression.resolve (minimum : Bool) (e : Expression) : Traced Bounds :=
  if e.others.isEmpty then e.first.resolve minimum else .fail (.notARange e.node)

/-! ## Trees built by hand -/

end DateSpan.Expr

namespace DateSpan

open DateSpan.Expr

/-- Finds the bounds of a tree. At the outermost place and where an operand stands, one `single`
around a node counts as the node; what is no node has no bounds. -/
def Datum.resolveWith (room : Room) (minimum unwrap : Bool) : Datum → Traced Bounds
  | .node (.single v) =>
    if unwrap then v.resolveWith room minimum false else .fail (.notARange (.node (.single v)))
  | .node (.brief unit xs) => do
    let first ← .lift (Version.ofComponents room xs)
    briefRule unit (← .lift (spanEnds minimum unit first))
  | .node (.lowerBounded bound op) => do
    lowerRule op.isStrict (← bound.resolveWith room minimum true)
  | .node (.upperBounded bound op) => do
    upperRule op.isStrict (← bound.resolveWith room minimum true)
  | .node (.fullyBounded lower upper) => do
    let (limits, op) ← match lower with
      | .node (.lowerBounded bound op) => do pure (← bound.resolveWith room false true, op)
      | .node (.upperBounded bound op) => do pure (← bound.resolveWith room false true, op)
      | _ => .fail .missingPart
    let first ← required limits.lower
    let (limits, op') ← match upper with
      | .node (.lowerBounded bound op) => do pure (← bound.resolveWith room false true, op)
      | .node (.upperBounded bound op) => do pure (← bound.resolveWith room false true, op)
      | _ => .fail .missingPart
    let last ← required limits.upper
    betweenRule first op.isStrict last op'.isStrict
  | .node (.relative base extent side) => do
    let limits ← base.resolveWith room minimum true
    relativeRule side limits (← .lift (Duration.ofNode room extent))
  | d => .fail (.notARange d)

def Datum.resolve (room : Room) (minimum : Bool) (tree : Datum) : Traced Bounds :=
  tree.resolveWith room minimum true

end DateSpan
