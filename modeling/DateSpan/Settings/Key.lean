import DateSpan.Datum.Basic

/-! The settings: their names, the values they admit and their defaults. -/

namespace DateSpan.Settings

inductive Key
  | parseCacheSize
  | rangeCompareMode
  | debugParsing
  | debugResolve
  | debugFileLoads
  | debugAll
  | debugNone
  | quiet
  deriving DecidableEq, Repr

inductive Kind
  | size
  | mode
  | flag
  deriving DecidableEq, Repr

namespace Key

/-- Every setting, in the order of their names. -/
def all : List Key :=
  [debugAll, debugFileLoads, debugNone, debugParsing, debugResolve, parseCacheSize, quiet,
    rangeCompareMode]

def name : Key → String
  | parseCacheSize => "parse_cache_size"
  | rangeCompareMode => "range_compare_mode"
  | debugParsing => "debug_parsing"
  | debugResolve => "debug_resolve"
  | debugFileLoads => "debug_file_loads"
  | debugAll => "debug_all"
  | debugNone => "debug_none"
  | quiet => "quiet"

def ofName? (s : String) : Option Key :=
  all.find? fun k => k.name == s

def kind : Key → Kind
  | parseCacheSize => .size
  | rangeCompareMode => .mode
  | _ => .flag

def variableName (k : Key) : String :=
  "DATEVER_" ++ String.ofList (k.name.toList.map Char.toUpper)

def jsonVariableName (k : Key) : String :=
  k.variableName ++ "_JSON"

def default : Key → Datum
  | parseCacheSize => .int 1024
  | rangeCompareMode => .text "partial"
  | _ => .bool false

end Key

/-- Sizes are whole numbers from zero on, modes are the two known ones, flags are true or false. -/
def Kind.admits : Kind → Datum → Bool
  | .size, .int n => decide (0 ≤ n)
  | .mode, .text s => s == "partial" || s == "lexicographic"
  | .flag, .bool _ => true
  | _, _ => false

def defaults : Table :=
  Key.all.map fun k => (k.name, k.default)

end DateSpan.Settings
