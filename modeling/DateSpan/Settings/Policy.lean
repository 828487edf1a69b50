import DateSpan.Room

/-! What evaluation reads from the settings. A setting is checked when it is read, so each reading
has an outcome of its own. -/

namespace DateSpan

inductive TieRule
  | leave
  | refine
  deriving DecidableEq, Repr

namespace Settings

def Key.named? (d : Datum) : Option Key :=
  d.asText?.bind Key.ofName?

/-- The setting that a datum names. What cannot be a name at all is not looked for. -/
def Key.ofDatum (room : Room) (d : Datum) : Except Fault Key :=
  match Key.named? d with
  | some k => .ok k
  | none => do
    if ¬ d.isHashable then throw .argumentMismatch
    throw (.unknownSetting (← d.quotedAlone room))

def value (t : Table) (k : Key) : Except Fault Datum :=
  match t.get? k.name with
  | none => .error (.missingKey k.name)
  | some d => if k.kind.admits d then .ok d else .error (.misconfigured k.name)

/-- Whether messages on a topic are wanted: silence and the general switches come first, and the
switch of the topic is read only if they leave it open. -/
def debugging {m : Type → Type} [Monad m] (flag : Key → m Bool) (topic : m Bool) : m Bool := do
  if ← flag .quiet then return false
  if ← flag .debugNone then return false
  if ← flag .debugAll then return true
  topic

def flag (t : Table) (k : Key) : Except Fault Bool :=
  (value t k).map Datum.truthy

def memoLimit : Nat := Nat.pow 2 63

def memoSize (t : Table) : Except Fault Nat := do
  match ← value t .parseCacheSize with
  | .int n => if n.toNat < memoLimit then .ok n.toNat else .error .tooLarge
  | _ => .error (.misconfigured Key.parseCacheSize.name)

def readText (s : String) : Except Fault Expr.Expression :=
  match Expr.read s with
  | .ok e => .ok e
  | .error (.mismatch m) => .error (.syntaxAt s m)
  | .error .longNumber => .error .longNumber

def tieRule (t : Table) : Except Fault TieRule := do
  match ← value t .rangeCompareMode with
  | .text "lexicographic" => .ok .refine
  | _ => .ok .leave

end Settings

/-- What evaluation depends on beside its data: the readings of the settings, and the room. -/
structure Policy where
  parsing : Except Fault Bool
  resolving : Except Fault Bool
  ties : Except Fault TieRule
  room : Room

namespace Policy

def ofTable (room : Room) (t : Table) : Policy where
  parsing := do
    let _ ← Settings.memoSize t
    Settings.debugging (Settings.flag t) (Settings.flag t .debugParsing)
  resolving := Settings.debugging (Settings.flag t) (Settings.flag t .debugResolve)
  ties := Settings.tieRule t
  room := room

def ofOverrides (room : Room) (overrides : Table) : Policy :=
  ofTable room (Table.merge Settings.defaults overrides)

def plain : Policy := ⟨.ok false, .ok false, .ok .leave, .ample 0⟩

def Valid (p : Policy) : Prop :=
  (∃ b, p.parsing = .ok b) ∧ (∃ b, p.resolving = .ok b) ∧ ∃ r, p.ties = .ok r

def read (p : Policy) (s : String) : Except Fault Expr.Expression := do
  let _ ← p.parsing
  Settings.readText s

def readDatum (p : Policy) : Datum → Except Fault Expr.Expression
  | .text s => p.read s
  | d => .error (.notText d.typeName)

def trace (p : Policy) : Datum → Except Fault (List String)
  | .text s => do
    let e ← p.read s
    let wanted ← p.parsing
    return if wanted then Expr.report s e.node.shown else []
  | d => .error (.notText d.typeName)

end Policy

end DateSpan
