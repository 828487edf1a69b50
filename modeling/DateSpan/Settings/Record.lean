import DateSpan.Datum.Search

/-! Records over data: each field is checked when it is first read, and then kept. Beside its fields a
record has members, which are not checked; the data that fields are read from are one of them. -/

namespace DateSpan.Settings

structure FieldRule where
  typeName : String
  isOptional : Bool

structure Record where
  rules : List (String × FieldRule)
  members : Table
  /-- What was read or replaced since; it counts before fields and members. -/
  kept : Table

namespace Record

-- members by which a record reads, checks and reports
def sourceName : String := "_data"

def checkName : String := "_validate_key"

def reportName : String := "schema_error"

def rulesName : String := "schema"

def ownNames : List String := [rulesName, reportName, checkName, sourceName]

/-- A record over data, with further members. No field may have the name of a member, and members may
not take the place of the rules. -/
def make (rules : List (String × FieldRule)) (source : Datum) (members : Table) :
    Except Fault Record :=
  if members.has rulesName then .error .unknownName
  else if rules.any fun (name, _) => members.has name || ownNames.contains name then
    .error .nameTaken
  else .ok ⟨rules, members.foldl (fun t (name, d) => t.put name d) [(sourceName, source)], []⟩

structure Result (α : Type) where
  outcome : Except Fault α
  checked : List String
  record : Record

def source (r : Record) : Datum :=
  ((r.kept.get? sourceName).or (r.members.get? sourceName)).getD .null

/-- The name under which a field that was read is kept. A field without a name is kept under one that
stands for it, so that it is read afresh each time. -/
def keptName (name : String) : String :=
  if name = "" then "getter" else name

def keep (r : Record) (name : String) (d : Datum) : Record :=
  { r with kept := r.kept.put (keptName name) d }

def readField (p : Policy) (r : Record) (name : String) (rule : FieldRule) : Result Datum :=
  match r.source.at? p name with
  | .error f => ⟨.error f, [], r⟩
  | .ok none =>
    if rule.isOptional then ⟨.ok .null, [], r.keep name .null⟩
    -- a member in the place of the report or of the check is a datum, which cannot be called
    else if r.members.has reportName then ⟨.error .argumentMismatch, [], r⟩
    else ⟨.error (.missingKey name), [], r⟩
  | .ok (some d) =>
    if r.members.has checkName then ⟨.error .argumentMismatch, [], r⟩
    else if d.typeName = rule.typeName then ⟨.ok d, [name], r.keep name d⟩
    else ⟨.error (.badRecordKey name), [name], r⟩

def read (p : Policy) (r : Record) (name : String) : Result Datum :=
  match r.kept.get? name, List.lookup name r.rules, r.members.get? name with
  | some d, _, _ => ⟨.ok d, [], r⟩
  | none, some rule, _ => r.readField p name rule
  | none, none, some d => ⟨.ok d, [], r⟩
  | none, none, none => ⟨.error .unknownName, [], r⟩

def readDatum (p : Policy) (r : Record) : Datum → Result Datum
  | .text name => r.read p name
  | _ => ⟨.error .argumentMismatch, [], r⟩

def readEach (p : Policy) (r : Record) : List String → Result Table
  | [] => ⟨.ok [], [], r⟩
  | name :: names =>
    let first := r.read p name
    match first.outcome with
    | .error f => ⟨.error f, first.checked, first.record⟩
    | .ok d =>
      let rest := first.record.readEach p names
      ⟨rest.outcome.map fun t => (name, d) :: t, first.checked ++ rest.checked, rest.record⟩

def readAll (p : Policy) (r : Record) : Result Table :=
  r.readEach p (r.rules.map (·.1))

def setSource (r : Record) (source : Datum) : Record :=
  { r with kept := r.kept.put sourceName source }

def forget (r : Record) (name : Datum) : Result Datum :=
  if name.isHashable then ⟨.ok .null, [], { r with kept := r.kept.erase name }⟩
  else ⟨.error .argumentMismatch, [], r⟩

end Record

end DateSpan.Settings
