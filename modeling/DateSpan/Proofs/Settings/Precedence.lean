import DateSpan.Proofs.Outcome
import DateSpan.Proofs.Settings.Coherence
import Mathlib.Tactic.SplitIfs

/-! The source of a setting. Of an override, the variables of the environment and the files, the first
that is present gives the datum that a reading checks; one that is refused is not passed over. -/

namespace DateSpan.Settings

open Session

/-! ## Tables over one another -/

/-- The datum that a name was given last. -/
def latest? (t : Table) (name : Datum) : Option Datum :=
  (t.under name).getLast?

/-- The datum of a name in the last of some tables that has it. -/
def latestAmong? (tables : List Table) (name : Datum) : Option Datum :=
  tables.reverse.findSome? fun t => latest? t name

/-- Data laid over one another in order. -/
def laid (below : Option Datum) (data : List Datum) : Option Datum :=
  data.foldl (fun below d => some (Datum.overlay below d)) below

theorem getLast?_under (tables : List Table) (name : Datum) :
    (tables.flatMap fun t => t.under name).getLast? = latestAmong? tables name :=
  List.getLast?_flatMap

theorem has_iff_latest? (t : Table) (name : Datum) : t.has name ↔ latest? t name ≠ none := by
  rw [Table.has_eq, List.isSome_head?, latest?, ne_eq, ne_eq, List.getLast?_eq_none_iff]

theorem get?_foldl_merge (tables : List Table) (base : Table) (name : Datum) :
    (tables.foldl Table.merge base).get? name =
      laid (base.get? name) (tables.flatMap fun t => t.under name) := by
  induction tables generalizing base with
  | nil => rfl
  | cons t tables ih =>
    rw [List.foldl_cons, ih, Table.get?_merge, List.flatMap_cons, laid, laid, List.foldl_append]

theorem exists_laid {data : List Datum} {d : Datum} (h : data.getLast? = some d)
    (below : Option Datum) : ∃ b, laid below data = some (Datum.overlay b d) := by
  obtain ⟨before, rfl⟩ := List.getLast?_eq_some_iff.mp h
  refine ⟨laid below before, ?_⟩
  rw [laid, List.foldl_append]
  rfl

/-- Only a table laid over a table is not simply put in its place. -/
theorem overlay_cases (below : Option Datum) (d : Datum) :
    Datum.overlay below d = d ∨ ∃ t t', Datum.overlay below d = .dict t ∧ d = .dict t' := by
  unfold Datum.overlay
  split
  · exact .inr ⟨_, _, rfl, rfl⟩
  · exact .inl rfl

/-! ## Sources -/

namespace Key

def validated (k : Key) (d : Datum) : Except Fault Datum :=
  if k.kind.admits d then .ok d else .error (.misconfigured k.name)

/-- What each source gives a setting, if it is present; the sources stand in order of precedence. -/
def sources (room : Room) (k : Key) (env : Environment) (locked : Datum) (overrides : Table)
    (tables : List Table) : List (Option (Except Fault Datum)) :=
  [(latest? overrides k.name).map .ok,
    if locked.truthy then none else (env.get? k.variableName).map k.parseVariable,
    if locked.truthy then none else (env.get? k.jsonVariableName).map (k.parseJson room),
    (latestAmong? tables k.name).map .ok]

def sourcesJsonFirst (room : Room) (k : Key) (env : Environment) (locked : Datum) (overrides : Table)
    (tables : List Table) : List (Option (Except Fault Datum)) :=
  [(latest? overrides k.name).map .ok,
    if locked.truthy then none else (env.get? k.jsonVariableName).map (k.parseJson room),
    if locked.truthy then none else (env.get? k.variableName).map k.parseVariable,
    (latestAmong? tables k.name).map .ok]

/-- Which variable comes first makes no difference unless both are there and count. -/
theorem sourcesJsonFirst_findSome? {room : Room} {k : Key} {env : Environment} {locked : Datum}
    {overrides : Table} (h : env.get? k.variableName = none ∨ env.get? k.jsonVariableName = none ∨
      locked.truthy ∨ overrides.has k.name) (tables : List Table) :
    (k.sourcesJsonFirst room env locked overrides tables).findSome? id =
      (k.sources room env locked overrides tables).findSome? id := by
  unfold sourcesJsonFirst sources
  rcases h with hplain | hjson | hlocked | hover
  · rw [hplain]
    cases locked.truthy <;> cases latest? overrides k.name <;>
      cases env.get? k.jsonVariableName <;> rfl
  · rw [hjson]
    cases locked.truthy <;> cases latest? overrides k.name <;>
      cases env.get? k.variableName <;> rfl
  · rw [if_pos hlocked, if_pos hlocked]
  · obtain ⟨d, hd⟩ := Option.ne_none_iff_exists.mp ((has_iff_latest? ..).mp hover)
    rw [← hd]
    rfl

theorem validated_dict (k : Key) (t : Table) :
    k.validated (.dict t) = .error (.misconfigured k.name) := by
  rw [validated]
  cases k.kind <;> rfl

theorem validated_overlay (k : Key) (below : Option Datum) (d : Datum) :
    k.validated (Datum.overlay below d) = k.validated d := by
  rcases overlay_cases below d with h | ⟨t, t', h, rfl⟩
  · rw [h]
  · rw [h, validated_dict, validated_dict]

theorem fromEnvironment_getD (room : Room) (k : Key) (env : Environment) (d : Datum) :
    (k.fromEnvironment room env).map (·.getD d) =
      (((env.get? k.variableName).map k.parseVariable).or
        ((env.get? k.jsonVariableName).map (k.parseJson room))).getD (.ok d) := by
  unfold fromEnvironment
  cases env.get? k.variableName with
  | some text =>
    simp only [Option.map_some, Option.some_or, Option.getD_some]
    cases k.parseVariable text <;> rfl
  | none =>
    cases env.get? k.jsonVariableName with
    | none => rfl
    | some json =>
      simp only [Option.map_none, Option.none_or, Option.map_some, Option.getD_some]
      cases k.parseJson room json <;> rfl

theorem parseVariable_error {k : Key} {text : String} {f : Fault}
    (h : k.parseVariable text = .error f) : f.classOf = .configuration := by
  unfold parseVariable at h
  split at h
  · split at h
    · cases h
    · cases h
      rfl
  · cases h
  · split at h
    · cases h
    · cases h
      rfl

theorem parseJson_error {room : Room} {k : Key} {json : String} {f : Fault}
    (h : k.parseJson room json = .error f) :
    f.classOf = .configuration ∨ f = .nestedTooDeep ∧ Json.read room.reads json = .error .tooDeep := by
  unfold parseJson at h
  split at h
  · cases h
  · rename_i hdeep
    cases h
    exact .inr ⟨rfl, hdeep⟩
  · cases h
    exact .inl rfl

theorem validated_error {k : Key} {d : Datum} {f : Fault} (h : k.validated d = .error f) :
    f.classOf = .configuration := by
  unfold validated at h
  split at h
  · cases h
  · cases h
    rfl

end Key

open Workspace

/-! ## Files -/

theorem FileContent.table_error {path : String} {content : FileContent} {f : Fault}
    (h : content.table path = .error f) : f.classOf = .configuration ∨ content = .failing f := by
  unfold table at h
  split at h
  · cases h
    exact .inl rfl
  · cases h
    exact .inr rfl
  · cases h
  · left
    split_ifs at h <;> cases h <;> rfl
  · split_ifs at h
    cases h
    exact .inl rfl

/-- The file of the defaults is there and gives the defaults. -/
structure Workspace.HoldsDefaults (w : Workspace) : Prop where
  found : w.files.find? masterName = some masterName
  loaded : w.loads masterName = .ok defaults

/-- The tables of the files that are found at some paths. -/
def Workspace.tablesOf (w : Workspace) (paths : List String) : Except Fault (List Table) :=
  (paths.filterMap w.files.find?).mapM w.loads

namespace Workspace

variable {w : Workspace}

theorem tablesOf_cons_none {path : String} (h : w.files.find? path = none) (paths : List String) :
    w.tablesOf (path :: paths) = w.tablesOf paths := by
  rw [tablesOf, List.filterMap_cons_none h, tablesOf]

theorem tablesOf_cons_some {path file : String} (h : w.files.find? path = some file)
    (paths : List String) :
    w.tablesOf (path :: paths) = (do
      let t ← w.loads file
      (w.tablesOf paths).map (t :: ·)) := by
  rw [tablesOf, List.filterMap_cons_some h, List.mapM_cons, tablesOf]
  cases w.loads file with
  | error f => rfl
  | ok t => cases (paths.filterMap w.files.find?).mapM w.loads <;> rfl

/-- How laying files goes on from the first path. -/
theorem lays_cases (w : Workspace) (path : String) (paths : List String) (t : Table)
    (files : List String) :
    (w.files.find? path = none ∧ w.lays (path :: paths) t files = w.lays paths t files) ∨
    ∃ file, w.files.find? path = some file ∧
      ((∃ f, w.loads file = .error f ∧ w.lays (path :: paths) t files = .error f) ∨
      ∃ loaded, w.loads file = .ok loaded ∧
        ((∃ f, w.room.lay t loaded = .error f ∧ w.lays (path :: paths) t files = .error f) ∨
        ∃ laid, w.room.lay t loaded = .ok laid ∧
          w.lays (path :: paths) t files = w.lays paths laid (files ++ [file]))) := by
  cases hfile : w.files.find? path with
  | none =>
    left
    simp only [lays, hfile, and_self]
  | some file =>
    right
    refine ⟨file, rfl, ?_⟩
    cases hloads : w.loads file with
    | error f =>
      left
      exact ⟨f, rfl, by simp only [lays, hfile, hloads]⟩
    | ok loaded =>
      right
      refine ⟨loaded, rfl, ?_⟩
      cases hlay : w.room.lay t loaded with
      | error f =>
        left
        exact ⟨f, rfl, by simp only [lays, hfile, hloads, hlay]⟩
      | ok laid =>
        right
        exact ⟨laid, rfl, by simp only [lays, hfile, hloads, hlay]⟩

/-- Files that load are laid over one another as tables. -/
theorem tablesOf_of_lays {paths : List String} {t t' : Table} {files files' : List String}
    (h : w.lays paths t files = .ok (t', files')) :
    ∃ tables, w.tablesOf paths = .ok tables ∧ t' = tables.foldl Table.merge t := by
  induction paths generalizing t files with
  | nil =>
    cases h
    exact ⟨[], rfl, rfl⟩
  | cons path paths ih =>
    rcases w.lays_cases path paths t files with ⟨hfile, heq⟩ | ⟨file, hfile, hrest⟩
    · rw [tablesOf_cons_none hfile]
      exact ih (heq.symm.trans h)
    · rw [tablesOf_cons_some hfile]
      rcases hrest with ⟨f, -, heq⟩ | ⟨loaded, hloads, ⟨f, -, heq⟩ | ⟨laid, hlay, heq⟩⟩
      · cases heq.symm.trans h
      · cases heq.symm.trans h
      · obtain ⟨tables, htables, ht⟩ := ih (heq.symm.trans h)
        rw [hloads, htables, ht, Room.lay_eq_ok hlay]
        exact ⟨loaded :: tables, rfl, rfl⟩

theorem loads_error {path : String} {f : Fault} (h : w.loads path = .error f) :
    f.classOf = .configuration ∨ w.files.content? path = some (.failing f) := by
  unfold loads at h
  split at h
  · cases h
  · rcases FileContent.table_error h with hclass | hcontent
    · exact .inl hclass
    · right
      cases hfile : w.files.content? path with
      | none =>
        rw [hfile] at hcontent
        cases hcontent
      | some content =>
        rw [hfile] at hcontent
        exact congrArg some hcontent

/-- The files at some paths cannot be read for a reason of their own: one of them fails with a fault that
is none of the configuration, or there is no room to lay them over one another. -/
def Obstructed (w : Workspace) (paths : List String) (f : Fault) : Prop :=
  (∃ path ∈ paths, ∃ file, w.files.find? path = some file ∧
    w.files.content? file = some (.failing f)) ∨ ∃ t u, w.room.lay t u = .error f

theorem lays_error {paths : List String} {t : Table} {files : List String} {f : Fault}
    (h : w.lays paths t files = .error f) : f.classOf = .configuration ∨ w.Obstructed paths f := by
  induction paths generalizing t files with
  | nil => cases h
  | cons path paths ih =>
    have hlater : ∀ {t files}, w.lays paths t files = .error f →
        f.classOf = .configuration ∨ w.Obstructed (path :: paths) f := by
      intro t files h
      rcases ih h with hclass | ⟨p, hp, hfile⟩ | hlay
      · exact .inl hclass
      · exact .inr (.inl ⟨p, List.mem_cons_of_mem path hp, hfile⟩)
      · exact .inr (.inr hlay)
    rcases w.lays_cases path paths t files with ⟨-, heq⟩ | ⟨file, hfile, hrest⟩
    · exact hlater (heq.symm.trans h)
    · rcases hrest with ⟨g, hloads, heq⟩ | ⟨loaded, -, ⟨g, hlay, heq⟩ | ⟨laid, -, heq⟩⟩
      · cases heq.symm.trans h
        rcases loads_error hloads with hclass | hcontent
        · exact .inl hclass
        · exact .inr (.inl ⟨path, List.mem_cons_self, file, hfile, hcontent⟩)
      · cases heq.symm.trans h
        exact .inr (.inr ⟨t, loaded, hlay⟩)
      · exact hlater (heq.symm.trans h)

theorem HoldsDefaults.tablesOf (hw : w.HoldsDefaults) {more : List String} {tables : List Table}
    (h : w.tablesOf (masterName :: more) = .ok tables) : ∃ rest, tables = defaults :: rest := by
  rw [Workspace.tablesOf, List.filterMap_cons_some hw.found] at h
  cases mapM_eq_ok_iff.mp h with
  | cons hfirst _ =>
    cases hw.loaded.symm.trans hfirst
    exact ⟨_, rfl⟩

end Workspace

theorem place?_master : place? masterName = some [masterName] := by
  have hsplit : masterName.splitOn "/" = [masterName] := by
    unfold String.splitOn
    rw [if_neg (by decide)]
    repeat
      unfold String.splitOnAux
      simp +decide only [if_true, if_false]
  unfold place?
  rw [hsplit]
  decide

theorem place?_masterPy : place? (assignmentPath masterName) = some ["$MASTER.py"] := by
  have hpath : assignmentPath masterName = "$MASTER.py" := by decide
  have hsplit : "$MASTER.py".splitOn "/" = ["$MASTER.py"] := by
    unfold String.splitOn
    rw [if_neg (by decide)]
    repeat
      unfold String.splitOnAux
      simp +decide only [if_true, if_false]
  unfold place?
  rw [hpath, hsplit]
  decide

theorem namesAssignments_master : namesAssignments masterName = false := by
  apply String.Slice.endsWith_string_eq_false_iff.mpr
  rw [String.copy_toSlice]
  decide

/-- Where there is no file but that of the defaults, it is found. -/
theorem Workspace.holdsDefaults_ofFiles (room : Room) (env : Environment) :
    HoldsDefaults { ofFiles room [] with environment := env } := by
  have hfiles : (ofFiles room []).files = [([masterName], .data (.dict defaults))] := by
    simp only [ofFiles, Files.ofList, List.foldl_cons, List.foldl_nil, Files.write, place?_master]
    rfl
  have hcontent : Files.content? [([masterName], .data (.dict defaults))] masterName =
      some (.data (.dict defaults)) := by
    rw [Files.content?, place?_master]
    rfl
  have hnone : Files.content? [([masterName], .data (.dict defaults))] (assignmentPath masterName) =
      none := by
    rw [Files.content?, place?_masterPy]
    rfl
  constructor
  · rw [Files.find?, hfiles, List.find?_cons_of_neg (by rw [hnone]; nofun),
      List.find?_cons_of_pos (by rw [hcontent]; rfl)]
  · have hloaded : (ofFiles room []).loaded = [] := rfl
    simp only [loads, hloaded, List.lookup_nil, hfiles, hcontent, Option.getD_some,
      FileContent.table, namesAssignments_master, Bool.false_eq_true, not_false_eq_true, if_true]

/-! ## What a setting takes -/

theorem latest?_defaults (k : Key) : latest? defaults k.name = some k.default := by
  cases k <;> rfl

theorem exists_latestAmong? (k : Key) (rest : List Table) :
    ∃ d, latestAmong? (defaults :: rest) k.name = some d := by
  rw [latestAmong?, List.reverse_cons, List.findSome?_append]
  cases rest.reverse.findSome? fun t => latest? t k.name with
  | some d => exact ⟨d, rfl⟩
  | none =>
    refine ⟨k.default, ?_⟩
    rw [Option.none_or, List.findSome?_singleton, latest?_defaults]

namespace Config

variable {c : Config} {s : Surroundings} {k : Key} {overrides : Table} {locked : Datum}

theorem settling_some (c : Config) (s : Surroundings) (k : Key) (d : Datum) :
    c.settling s k (some d) = c.choosing s k d >>= k.validated := rfl

theorem choosing_override (hs : s.overrides = some overrides) (h : overrides.has k.name)
    (d : Datum) : c.choosing s k d = .ok d := by
  simp only [choosing, hs, h, if_true]

theorem choosing_environment (hs : s.overrides = some overrides) (hc : c.locked = some locked)
    (h : ¬ overrides.has k.name) (d : Datum) :
    c.choosing s k d =
      if locked.truthy then .ok d
      else (k.fromEnvironment s.room s.environment).map (·.getD d) := by
  simp only [choosing, hs, hc, h, Bool.false_eq_true, if_false]

/-- The setting is given by the first of its sources that is there. -/
theorem settling_sources (hs : s.overrides = some overrides) (hc : c.locked = some locked)
    {tables : List Table} {file : Datum} (hfile : latestAmong? tables k.name = some file) :
    ∃ given, (k.sources s.room s.environment locked overrides tables).findSome? id = some given ∧
      c.settling s k (((tables.foldl Table.merge []).merge overrides).get? k.name) =
        given >>= k.validated := by
  have hnil : Table.get? [] k.name = none := rfl
  rw [Table.get?_merge, get?_foldl_merge]
  cases hover : latest? overrides k.name with
  | some d =>
    have hhas : overrides.has k.name := (has_iff_latest? ..).mpr (by rw [hover]; nofun)
    obtain ⟨b, hlaid⟩ := exists_laid hover (laid none (tables.flatMap fun t => t.under k.name))
    refine ⟨.ok d, by simp only [Key.sources, hover]; rfl, ?_⟩
    rw [laid] at hlaid
    rw [hnil, hlaid, settling_some, choosing_override hs hhas]
    -- a table is laid over what lies below it, but no setting admits a table
    exact k.validated_overlay b d
  | none =>
    have hhas : ¬ overrides.has k.name := fun h => (has_iff_latest? ..).mp h hover
    have hunder : overrides.under k.name = [] := List.getLast?_eq_none_iff.mp hover
    obtain ⟨b, hlaid⟩ := exists_laid ((getLast?_under tables k.name).trans hfile) none
    rw [hunder, List.foldl_nil, hnil, hlaid, settling_some, choosing_environment hs hc hhas]
    simp only [Key.sources, hover, hfile]
    by_cases hlocked : locked.truthy
    · simp only [hlocked, if_true]
      exact ⟨.ok file, rfl, k.validated_overlay b file⟩
    · simp only [hlocked, Bool.false_eq_true, if_false, k.fromEnvironment_getD]
      cases (s.environment.get? k.variableName).map k.parseVariable with
      | some given => exact ⟨given, rfl, rfl⟩
      | none =>
        cases (s.environment.get? k.jsonVariableName).map (k.parseJson s.room) with
        | some given => exact ⟨given, rfl, rfl⟩
        | none => exact ⟨.ok file, rfl, k.validated_overlay b file⟩

end Config

/-! ## Readings -/

/-- The files at some paths load to these tables, and there is room to lay them over one another, and
the overrides over them. -/
def Workspace.Merges (w : Workspace) (paths : List String) (overrides : Table) (tables : List Table) :
    Prop :=
  w.tablesOf paths = .ok tables ∧ ∃ t files, w.lays paths [] [] = .ok (t, files) ∧
    ∀ f, w.room.merge t overrides ≠ .error f

/-- A configuration under a workspace reads a setting as its sources say. -/
structure Workspace.Governs (w : Workspace) (paths : List String) (overrides : Table)
    (locked : Datum) (k : Key) (outcome : Except Fault Datum) : Prop where
  unloaded : ∀ f, w.lays paths [] [] = .error f → outcome = .error f
  unmerged : ∀ f, w.Unmergeable paths overrides f → outcome = .error f
  /-- The first source that is there gives the datum, and no other is asked. -/
  given : ∀ tables, w.Merges paths overrides tables → ∃ given,
    (k.sources w.room w.environment locked overrides tables).findSome? id = some given ∧
      outcome = given >>= k.validated
  /-- That is as well the first with the JSON variable before the plain one, unless both count. -/
  jsonFirst : w.environment.get? k.variableName = none ∨
    w.environment.get? k.jsonVariableName = none ∨ locked.truthy ∨ overrides.has k.name →
    ∀ tables, w.Merges paths overrides tables → ∃ given,
      (k.sourcesJsonFirst w.room w.environment locked overrides tables).findSome? id = some given ∧
        outcome = given >>= k.validated
  /-- What is refused is a fault of the configuration, but for files that cannot be read for a reason of
  their own, overrides that there is no room to merge, and JSON that is nested too deep. -/
  refused : ∀ f, outcome = .error f → f.classOf = .configuration ∨
    (w.lays paths [] [] = .error f ∧ w.Obstructed paths f) ∨ w.Unmergeable paths overrides f ∨
    f = .nestedTooDeep ∧ ∃ text, w.environment.get? k.jsonVariableName = some text ∧
      Json.read w.room.reads text = .error .tooDeep

theorem Key.sources_error {room : Room} {k : Key} {env : Environment} {locked : Datum}
    {overrides : Table} {tables : List Table} {f : Fault}
    (h : (k.sources room env locked overrides tables).findSome? id = some (.error f)) :
    f.classOf = .configuration ∨ f = .nestedTooDeep ∧ ∃ text,
      env.get? k.jsonVariableName = some text ∧ Json.read room.reads text = .error .tooDeep := by
  have hmem : some (.error f) ∈ k.sources room env locked overrides tables := by
    obtain ⟨source, hmem, hsource⟩ := List.exists_of_findSome?_eq_some h
    exact (show source = _ from hsource) ▸ hmem
  have hvariable : ∀ {text : Option String} {parse : String → Except Fault Datum},
      some (.error f) = (if locked.truthy then none else text.map parse) →
      ∃ s, text = some s ∧ parse s = .error f := by
    intro text parse heq
    split at heq
    · cases heq
    · exact Option.map_eq_some_iff.mp heq.symm
  simp only [sources, List.mem_cons, List.not_mem_nil, or_false] at hmem
  rcases hmem with hover | hplain | hjson | hfile
  · obtain ⟨d, -, hd⟩ := Option.map_eq_some_iff.mp hover.symm
    cases hd
  · obtain ⟨text, -, hparse⟩ := hvariable hplain
    exact .inl (parseVariable_error hparse)
  · obtain ⟨text, htext, hparse⟩ := hvariable hjson
    rcases parseJson_error hparse with hclass | ⟨hdeep, hread⟩
    · exact .inl hclass
    · exact .inr ⟨hdeep, text, htext, hread⟩
  · obtain ⟨d, -, hd⟩ := Option.map_eq_some_iff.mp hfile.symm
    cases hd

namespace Workspace

variable {w : Workspace} {paths : List String} {overrides : Table} {tables : List Table} {f : Fault}

theorem afresh_of_unloaded (h : w.lays paths [] [] = .error f) (locked : Datum) (k : Key) :
    w.afresh paths locked overrides k = .error f := by
  rw [afresh, Config.afresh_eq, Config.merging_fst rfl, w.loading_made, h]
  rfl

theorem afresh_of_unmergeable (h : w.Unmergeable paths overrides f) (locked : Datum) (k : Key) :
    w.afresh paths locked overrides k = .error f := by
  obtain ⟨t, files, hlays, hmerge⟩ := h
  apply Config.afresh_of_refuses
  refine ⟨t, overrides, ?_, rfl, hmerge⟩
  rw [w.loading_made, hlays]
  rfl

/-- A reading lays the tables of the files and the overrides over one another, and then settles what
it takes of them. -/
theorem afresh_of_merges (h : w.Merges paths overrides tables) (locked : Datum)
    (k : Key) :
    w.afresh paths locked overrides k =
      (Config.made paths 0 locked).settling (w.beside overrides) k
        (((tables.foldl Table.merge []).merge overrides).get? k.name) := by
  obtain ⟨htables, t, files, hlays, hmerges⟩ := h
  obtain ⟨tables', htables', ht⟩ := tablesOf_of_lays hlays
  cases htables.symm.trans htables'
  cases hmerge : w.room.merge t overrides with
  | error g => exact absurd hmerge (hmerges g)
  | ok u =>
    have hu := Room.merge_eq_ok hmerge
    rw [ht] at hu
    have hmerging : ((Config.made paths 0 locked).unread.merging (w.beside overrides)).1 = .ok u := by
      rw [Config.merging_fst rfl, w.loading_made, hlays]
      exact hmerge
    rw [afresh, Config.afresh_eq, hmerging, hu]
    rfl

/-- The files cannot be laid over one another, or the overrides not over them, or there is room for
all. -/
theorem merges_cases (w : Workspace) (paths : List String) (overrides : Table) :
    (∃ f, w.lays paths [] [] = .error f) ∨ (∃ f, w.Unmergeable paths overrides f) ∨
      ∃ tables, w.Merges paths overrides tables := by
  cases hlays : w.lays paths [] [] with
  | error f => exact .inl ⟨f, rfl⟩
  | ok laid =>
    right
    cases hmerge : w.room.merge laid.1 overrides with
    | error f => exact .inl ⟨f, laid.1, laid.2, hlays, hmerge⟩
    | ok u =>
      obtain ⟨tables, htables, -⟩ := tablesOf_of_lays hlays
      refine .inr ⟨tables, htables, laid.1, laid.2, hlays, fun f hf => ?_⟩
      cases hmerge.symm.trans hf

theorem Merges.settles (h : w.Merges (masterName :: paths) overrides tables) (hw : w.HoldsDefaults)
    (locked : Datum) (k : Key) :
    ∃ given, (k.sources w.room w.environment locked overrides tables).findSome? id = some given ∧
      w.afresh (masterName :: paths) locked overrides k = given >>= k.validated := by
  obtain ⟨rest, rfl⟩ := hw.tablesOf h.1
  obtain ⟨file, hfile⟩ := exists_latestAmong? k rest
  obtain ⟨given, hgiven, hsettling⟩ := Config.settling_sources
    (c := .made (masterName :: paths) 0 locked) (s := w.beside overrides) rfl rfl hfile
  exact ⟨given, hgiven, (afresh_of_merges h locked k).trans hsettling⟩

theorem governs_afresh (hw : w.HoldsDefaults) (more : List String) (overrides : Table)
    (locked : Datum) (k : Key) :
    w.Governs (masterName :: more) overrides locked k
      (w.afresh (masterName :: more) locked overrides k) where
  unloaded _ h := afresh_of_unloaded h locked k
  unmerged _ h := afresh_of_unmergeable h locked k
  given _ h := h.settles hw locked k
  jsonFirst hone tables h := by
    obtain ⟨given, hgiven, hsettles⟩ := h.settles hw locked k
    exact ⟨given, (Key.sourcesJsonFirst_findSome? hone tables).trans hgiven, hsettles⟩
  refused f hf := by
    rcases w.merges_cases (masterName :: more) overrides with ⟨g, hg⟩ | ⟨g, hg⟩ | ⟨tables, h⟩
    · cases (afresh_of_unloaded hg locked k).symm.trans hf
      rcases lays_error hg with hclass | hobstructed
      · exact .inl hclass
      · exact .inr (.inl ⟨hg, hobstructed⟩)
    · cases (afresh_of_unmergeable hg locked k).symm.trans hf
      exact .inr (.inr (.inl hg))
    · obtain ⟨given, hgiven, hsettles⟩ := h.settles hw locked k
      have houtcome := hsettles.symm.trans hf
      cases given with
      | ok d => exact .inl (Key.validated_error houtcome)
      | error g =>
        cases houtcome
        rcases Key.sources_error hgiven with hclass | hdeep
        · exact .inl hclass
        · exact .inr (.inr (.inr hdeep))

end Workspace

/-- A setting has the datum of an override, or else, unless the configuration is locked, that of its
plain variable, or else that of its JSON variable, or else that of the last file which has it: of a
new configuration, and of one that has been used, by the overrides in force. -/
theorem read_precedence {w : Workspace} (hw : w.HoldsDefaults) (name : String) (more : List String)
    (given : Option Nat) (locked : Datum) (k : Key) :
    let paths := masterName :: more
    let made := (create name paths given locked).after w
    w.Governs paths (w.tableAt given) locked k ((read name k).outcome made) ∧
    (OnSettings (w.tableAt given) → ∀ steps : List Step,
      let now := steps.foldl (fun t step => step.amend t) (w.tableAt given)
      (∀ f, ¬ w.Unmergeable paths now f) →
        w.Governs paths now locked k ((read name k).outcome (made.runOn name steps))) := by
  intro paths made
  refine ⟨?_, fun hinitial steps => ?_⟩
  · rw [outcome_created]
    exact governs_afresh hw more _ locked k
  · intro now hmerges
    obtain ⟨place, hmade⟩ := used_created w name paths given locked hinitial
    obtain ⟨hrun, c, hused, -⟩ := hmade.run steps
    have hfiles := (has_created w name paths given locked).1.trans hrun
    have hmerges' : ∀ f, ¬ Unmergeable (made.runOn name steps) paths now f := by
      intro f hf
      exact hmerges f (hfiles.unmergeable.mp hf)
    rw [hused.outcome hmerges', hfiles.afresh]
    exact governs_afresh hw more now locked k

/-- With both variables there the plain one gives the setting. -/
theorem read_precedence_plain :
    let w := { Workspace.ofFiles (.ample 1) [] with
      environment := [("DATEVER_QUIET", "0"), ("DATEVER_QUIET_JSON", "true")] }
    w.HoldsDefaults ∧ OnSettings (w.tableAt none) ∧
    (read "c" .quiet).outcome (((create "c" [masterName] none (.bool false)).after w).runOn "c"
      [.override "quiet" (.bool true), .remove "quiet"]) = .ok (.bool false) ∧
    (Key.quiet.sourcesJsonFirst w.room w.environment (.bool false) [] [defaults]).findSome? id =
      some (.ok (.bool true)) := by
  intro w
  have hw : w.HoldsDefaults := holdsDefaults_ofFiles ..
  have htables : w.tablesOf [masterName] = .ok [defaults] := by
    rw [tablesOf_cons_some hw.found, hw.loaded]
    rfl
  have hmerges : w.Merges [masterName] [] [defaults] := by
    refine ⟨htables, Table.merge [] defaults, [masterName], ?_, fun f hf => ?_⟩
    · simp only [lays, hw.found, hw.loaded]
      rfl
    · cases hf
  obtain ⟨given, hgiven, houtcome⟩ := ((read_precedence hw "c" [] none (.bool false) .quiet).2
    onSettings_nil [.override "quiet" (.bool true), .remove "quiet"]
    fun f => not_unmergeable rfl).given [defaults] hmerges
  have hplain : given = .ok (.bool false) := Option.some.inj (hgiven.symm.trans rfl)
  refine ⟨hw, onSettings_nil, ?_, rfl⟩
  rw [houtcome, hplain]
  rfl

end DateSpan.Settings
