import DateSpan.Room
import DateSpan.Settings.Json
import DateSpan.Text.Integer

/-! Settings from environment variables: each kind of setting has its own spelling, and a second
variable may hold the value as JSON. -/

namespace DateSpan.Settings

abbrev Environment := List (String × String)

namespace Environment

def get? (env : Environment) (name : String) : Option String :=
  List.lookup name env

def set (env : Environment) (name text : String) : Environment :=
  (name, text) :: env.filter fun (n, _) => n ≠ name

def unset (env : Environment) (name : String) : Environment :=
  env.filter fun (n, _) => n ≠ name

end Environment

def lower (s : String) : String :=
  String.ofList (s.toList.map Char.toLower)

/-- Words for true; the other flag words are for false. -/
def trueWords : List String := ["1", "true", "t", "yes", "y", "on"]

def Key.parseVariable (k : Key) (text : String) : Except Fault Datum :=
  match k.kind with
  | .size =>
    match Text.integer? text with
    | some n => .ok (.int n)
    | none => .error (.variableNotInteger k.variableName)
  | .mode => .ok (.text text)
  | .flag =>
    if lower text ∈ Fault.flagWords then .ok (.bool (decide (lower text ∈ trueWords)))
    else .error (.variableNotFlag k.variableName)

def Key.parseJson (room : Room) (k : Key) (json : String) : Except Fault Datum :=
  match Json.read room.reads json with
  | .ok d => .ok d
  | .error .tooDeep => .error .nestedTooDeep
  | .error .malformed => .error (.variableNotJson k.jsonVariableName)

/-- The value that the environment gives a setting, if any: the plain variable counts before the one
in JSON. -/
def Key.fromEnvironment (room : Room) (k : Key) (env : Environment) :
    Except Fault (Option Datum) :=
  match env.get? k.variableName, env.get? k.jsonVariableName with
  | some text, _ => (k.parseVariable text).map some
  | none, some json => (k.parseJson room json).map some
  | none, none => .ok none

end DateSpan.Settings
