import DateSpan.Settings.Environment
import DateSpan.Settings.File
import DateSpan.Settings.Policy

/-! Configurations: named objects that read settings from files, the environment and overrides, and
keep what they have read. They live in a workspace, since copies may share their overrides. -/

namespace DateSpan.Settings

/-- A configuration and what it keeps of earlier readings. Each part may be missing: it is not known
yet, or it was taken away. -/
structure Config where
  paths : Option (List String)
  overrides : Option Nat
  /-- A locked configuration pays no attention to the environment. -/
  locked : Option Datum
  values : List (Key × Datum)
  merged : Option Table
  loaded : Option Table
  /-- The files that were found at the last loading; none before the first. -/
  found : Option (Option (List String))
  sourced : Option (List String)

structure Workspace where
  room : Room
  files : Files
  environment : Environment
  /-- Files loaded so far; what is written to them later is not seen. -/
  loaded : List (String × Table)
  tables : List Table
  configs : List (String × Config)
  log : List String

/-- A step on a workspace; what it changed before a fault remains. -/
abbrev Session := ExceptT Fault (StateM Workspace)

def masterName : String := "$MASTER"

def homeName : String := ".dateverconfig"

def homePath (env : Environment) : String :=
  match env.get? "HOME" with
  | none => homeName
  | some home => String.ofList (home.toList.reverse.dropWhile (· = '/')).reverse ++ "/" ++ homeName

def Workspace.ofFiles (room : Room) (files : List (String × FileContent)) : Workspace where
  room := room
  files := .ofList ((masterName, .data (.dict defaults)) :: files)
  environment := []
  loaded := []
  tables := []
  configs := []
  log := []

/-! ## Files -/

def load (path : String) : Session Table := do
  let w ← get
  match List.lookup path w.loaded with
  | some t => return t
  | none =>
    let content := (w.files.content? path).getD .empty
    let t ← liftM (content.table path)
    modify fun w => { w with loaded := (path, t) :: w.loaded }
    return t

def loadAll : List String → Table → List String → Session (Table × List String)
  | [], t, found => return (t, found)
  | path :: paths, t, found => do
    match (← get).files.find? path with
    | none => loadAll paths t found
    | some file =>
      let loaded ← load file
      loadAll paths (← liftM ((← get).room.lay t loaded)) (found ++ [file])

/-! ## Readings -/

def getConfig (name : String) : Session Config := do
  match List.lookup name (← get).configs with
  | some c => return c
  | none => throw .noSuchEntry

def present {α : Type} : Option α → Session α
  | some a => return a
  | none => throw .unknownName

def putConfig (name : String) (c : Config) : Session Unit :=
  modify fun w =>
    { w with configs := (name, c) :: w.configs.filter fun (n, _) => n ≠ name }

def report (line : String) : Session Unit :=
  modify fun w => { w with log := w.log ++ [line] }

def overridesOf (c : Config) : Session Table := do
  return ((← get).tables[← present c.overrides]?).getD []

def setOverrides (c : Config) (t : Table) : Session Unit := do
  let place ← present c.overrides
  modify fun w => { w with tables := w.tables.set place t }

def fileTable (name : String) : Session Table := do
  let c ← getConfig name
  match c.loaded with
  | some t => return t
  | none =>
    let (t, found) ← loadAll (← present c.paths) [] []
    let c := { c with found := some (some found) }
    putConfig name c
    let asked := ((t.get? Key.debugFileLoads.name).map Datum.truthy).getD false
    let wanted ← if asked then (fun d : Datum => !d.truthy) <$> present c.locked else pure false
    let forced := (((← get).environment.get? Key.debugFileLoads.variableName).getD "") != ""
    if wanted || forced then
      for file in found do
        report ("Loaded config file " ++ file)
    putConfig name { c with loaded := some t }
    return t

def mergedTable (name : String) : Session Table := do
  match (← getConfig name).merged with
  | some t => return t
  | none =>
    let files ← fileTable name
    let c ← getConfig name
    let t ← liftM ((← get).room.merge files (← overridesOf c))
    putConfig name { c with merged := some t }
    return t

/-- The value that a setting takes: an override counts first, then, unless the configuration is
locked, the environment. -/
def chosen (c : Config) (k : Key) (d : Datum) : Session Datum := do
  if (← overridesOf c).has k.name then return d
  if (← present c.locked).truthy then return d
  return (← liftM (k.fromEnvironment (← get).room (← get).environment)).getD d

def read (name : String) (k : Key) : Session Datum := do
  match List.lookup k (← getConfig name).values with
  | some d => return d
  | none =>
    match (← mergedTable name).get? k.name with
    | none => throw (.missingKey k.name)
    | some found =>
      let c ← getConfig name
      let d ← chosen c k found
      if k.kind.admits d then
        putConfig name { c with values := (k, d) :: c.values }
        return d
      else throw (.misconfigured k.name)

def readFlag (name : String) (k : Key) : Session Bool := do
  return (← read name k).truthy

/-- Whether messages on a topic are wanted. The topic `printer` has no switch of its own, and is on
when the general switches leave it open. -/
def debug (name topic : String) : Session Bool :=
  debugging (readFlag name) <|
    match Key.ofName? ("debug_" ++ topic) with
    | some k => readFlag name k
    | none => if topic = "printer" then return true else throw .unknownName

def readAll (name : String) : Session Table :=
  Key.all.mapM fun k => do return (k.name, ← read name k)

/-- The files that a configuration was read from. Once asked for they stay the same. -/
def sourced (name : String) : Session (List String) := do
  match (← getConfig name).sourced with
  | some files => return files
  | none =>
    let _ ← mergedTable name
    let c ← getConfig name
    let files := (← present c.found).getD []
    putConfig name { c with sourced := some files }
    return files

/-! ## Parts -/

inductive Part
  | paths | overrides | locked | merged | loaded | found | sourced
  deriving DecidableEq, Repr

namespace Part

def all : List Part := [paths, overrides, locked, merged, loaded, found, sourced]

def name : Part → String
  | paths => "filepaths"
  | overrides => "overrides"
  | locked => "locked"
  | merged => "_data"
  | loaded => "_data_without_overrides"
  | found => "_sourced_filepaths"
  | sourced => "sourced_filepaths"

def ofName? (s : String) : Option Part :=
  all.find? fun p => p.name == s

end Part

def Config.drop (c : Config) : Part → Config
  | .paths => { c with paths := none }
  | .overrides => { c with overrides := none }
  | .locked => { c with locked := none }
  | .merged => { c with merged := none }
  | .loaded => { c with loaded := none }
  | .found => { c with found := none }
  | .sourced => { c with sourced := none }

def namesOf (files : List String) : Datum :=
  .list (files.map Datum.text)

def readPart (name : String) : Part → Session Datum
  | .paths => do return namesOf (← present (← getConfig name).paths)
  | .overrides => do return .dict (← overridesOf (← getConfig name))
  | .locked => do present (← getConfig name).locked
  | .merged => do return .dict (← mergedTable name)
  | .loaded => do return .dict (← fileTable name)
  | .found => do return (← present (← getConfig name).found).elim .null namesOf
  | .sourced => do return namesOf (← sourced name)

def readNamed (name : String) : Datum → Session Datum
  | .text key =>
    match Key.ofName? key, Part.ofName? key with
    | some k, _ => read name k
    | none, some p => readPart name p
    | none, none => if key = "data" then .dict <$> readAll name else throw .unknownName
  | _ => throw .argumentMismatch

/-! ## Making and changing configurations -/

def addTable (t : Table) : Session Nat := do
  let n := (← get).tables.length
  modify fun w => { w with tables := w.tables ++ [t] }
  return n

def Workspace.tableAt (w : Workspace) (place : Option Nat) : Table :=
  (place.bind fun n => w.tables[n]?).getD []

/-- The place for the overrides of a new configuration. A table that is given stays where it is, for
others to change as well, but for an empty one a table of its own is made. -/
def placeOf (given : Option Nat) : Session Nat := do
  match given with
  | some place => if ((← get).tableAt given).isEmpty then addTable [] else return place
  | none => addTable []

def create (name : String) (paths : List String) (given : Option Nat) (locked : Datum) :
    Session Unit := do
  let place ← placeOf given
  putConfig name ⟨some paths, some place, some locked, [], none, none, some none, none⟩

def createWith (name : String) (paths : List String) (overrides : Table) (locked : Datum) :
    Session Unit := do
  create name paths (some (← addTable overrides)) locked

/-- The files of a main configuration: the defaults, those that the environment lists, and the one
in the home directory unless the environment says otherwise. -/
def mainPaths (env : Environment) : List String :=
  let listed := (env.get? "DATEVER_CONFIG_FILE").getD ""
  let disabled := lower ((env.get? "DATEVER_DISABLE_HOME_CONFIG").getD "")
  [masterName] ++ (if listed = "" then [] else listed.splitOn ":")
    ++ (if disabled ∈ ["1", "t", "true"] then [] else [homePath env])

def createMain (name : String) (overrides : Table) : Session Unit := do
  createWith name (mainPaths (← get).environment) overrides (.bool false)

def createLocked (name : String) (overrides : Table) : Session Unit :=
  createWith name [masterName] overrides (.bool true)

/-- Copies a configuration with all that it has read but its merged table. A table of overrides that is
given stays where it is; without one the copy shares that of its source. -/
def copy (name target : String) (given : Option Nat) (locked : Datum) : Session Unit := do
  let c ← getConfig name
  putConfig target { c with overrides := given.or c.overrides, locked := some locked, merged := none }

def copyWith (name target : String) (overrides : Table) (locked : Datum) : Session Unit := do
  copy name target (some (← addTable overrides)) locked

def swap (name other : String) : Session Unit := do
  let c ← getConfig name
  let d ← getConfig other
  putConfig name d
  putConfig other c

/-- A configuration that forgets its merged table, and what else has the name: the reading of a
setting, or a part. -/
def Config.forget (c : Config) (key : Datum) : Config :=
  let c := { c with values := c.values.filter fun (k, _) => Key.named? key ≠ some k, merged := none }
  (key.asText?.bind Part.ofName?).elim c c.drop

def override (name : String) (key d : Datum) : Session Unit := do
  let c ← getConfig name
  let k ← liftM (Key.ofDatum (← get).room key)
  setOverrides c ((← overridesOf c).put k.name d)
  putConfig name (c.forget k.name)

def removeOverride (name : String) (key : Datum) : Session Unit := do
  let c ← getConfig name
  let t ← overridesOf c
  if ¬ key.isHashable then throw .argumentMismatch
  if t.has key then
    setOverrides c (t.erase key)
    putConfig name (c.forget key)

/-! ## The world around configurations -/

def variableText : Datum → Except Fault String
  | .text s => .ok s
  | .list paths => do
    let texts ← paths.mapM fun
      | .text s => .ok s
      | _ => .error .argumentMismatch
    return ":".intercalate texts
  | _ => .error .argumentMismatch

def setVariable (envName : String) (d : Datum) : Session Unit := do
  let text ← liftM (variableText d)
  if '=' ∈ envName.toList ∨ '\x00' ∈ (envName ++ text).toList then throw .unusableValue
  if envName = "" then throw .refused
  modify fun w => { w with environment := w.environment.set envName text }

def unsetVariable (envName : String) : Session Unit :=
  modify fun w => { w with environment := w.environment.unset envName }

def writeFile (path : String) (content : FileContent) : Session Unit :=
  modify fun w => { w with files := w.files.write path content }

def removeFile (path : String) : Session Unit :=
  modify fun w => { w with files := w.files.remove path }

def Config.text : String :=
  "Config(" ++ bracketed "[" "]" (Key.all.map fun k => Text.quoted k.name) ++ ")"

def Session.run {α : Type} (step : Session α) (w : Workspace) :
    Except Fault α × List String × Workspace :=
  let (outcome, w') := (ExceptT.run step).run { w with log := [] }
  (outcome, w'.log, w')

end DateSpan.Settings
