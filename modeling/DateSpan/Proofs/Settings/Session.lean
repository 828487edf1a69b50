import DateSpan.Settings.Workspace

/-! Sessions run on a workspace: the outcome of each primitive and the workspace that it leaves. -/

namespace DateSpan.Settings

namespace Session

variable {α β : Type}

/-- The outcome of a session with the workspace it leaves, the reported lines among it. -/
def exec (step : Session α) (w : Workspace) : Except Fault α × Workspace :=
  (ExceptT.run step).run w

/-- The outcome of a session that starts with nothing reported. -/
def outcome (step : Session α) (w : Workspace) : Except Fault α :=
  (step.run w).1

def after (step : Session α) (w : Workspace) : Workspace :=
  (step.run w).2.2

theorem outcome_eq (step : Session α) (w : Workspace) :
    step.outcome w = (step.exec { w with log := [] }).1 := rfl

theorem after_eq (step : Session α) (w : Workspace) :
    step.after w = (step.exec { w with log := [] }).2 := rfl

theorem exec_pure (a : α) (w : Workspace) : exec (pure a) w = (.ok a, w) := rfl

theorem exec_get (w : Workspace) : exec get w = (.ok w, w) := rfl

theorem exec_modify (change : Workspace → Workspace) (w : Workspace) :
    exec (modify change) w = (.ok (), change w) := rfl

theorem exec_liftM (outcome : Except Fault α) (w : Workspace) :
    exec (liftM outcome) w = (outcome, w) := by
  cases outcome <;> rfl

theorem exec_bind (step : Session α) (next : α → Session β) (w : Workspace) :
    exec (step >>= next) w =
      match exec step w with
      | (.ok a, w') => exec (next a) w'
      | (.error f, w') => (.error f, w') := by
  unfold exec
  change (ExceptT.bindCont next ((ExceptT.run step).run w).1).run ((ExceptT.run step).run w).2 = _
  rcases (ExceptT.run step).run w with ⟨outcome, w'⟩
  cases outcome <;> rfl

theorem exec_present (part : Option α) (w : Workspace) :
    exec (present part) w = (part.elim (.error .unknownName) .ok, w) := by
  cases part <;> rfl

end Session

open Session

/-! ## Configurations by name -/

theorem lookup_filter_ne {α : Type} (entries : List (String × α)) {name other : String}
    (h : other ≠ name) :
    List.lookup other (entries.filter fun (n, _) => n ≠ name) = List.lookup other entries := by
  induction entries with
  | nil => rfl
  | cons e rest ih =>
    obtain ⟨n, a⟩ := e
    by_cases hn : n = name
    · subst hn
      rw [List.filter_cons_of_neg (by simp), ih, List.lookup_cons, beq_false_of_ne h]
    · rw [List.filter_cons_of_pos (by simpa using hn), List.lookup_cons, List.lookup_cons, ih]

theorem exec_getConfig {w : Workspace} {name : String} {c : Config}
    (h : List.lookup name w.configs = some c) : exec (getConfig name) w = (.ok c, w) := by
  simp only [getConfig, exec_bind, exec_get, h, exec_pure]

def Workspace.withConfig (w : Workspace) (name : String) (c : Config) : Workspace :=
  { w with configs := (name, c) :: w.configs.filter fun (n, _) => n ≠ name }

theorem exec_putConfig (w : Workspace) (name : String) (c : Config) :
    exec (putConfig name c) w = (.ok (), w.withConfig name c) := rfl

theorem Workspace.lookup_withConfig (w : Workspace) (name : String) (c : Config) :
    List.lookup name (w.withConfig name c).configs = some c := by
  simp [withConfig]

theorem Workspace.lookup_withConfig_ne (w : Workspace) {name other : String} (c : Config)
    (h : other ≠ name) :
    List.lookup other (w.withConfig name c).configs = List.lookup other w.configs := by
  rw [withConfig, List.lookup_cons, beq_false_of_ne h]
  exact lookup_filter_ne w.configs h

/-! ## Overrides -/

/-- The overrides of a configuration, if it has not lost them. -/
def Workspace.overrides? (w : Workspace) (c : Config) : Option Table :=
  c.overrides.map fun place => w.tables[place]?.getD []

theorem exec_overridesOf (w : Workspace) (c : Config) :
    exec (overridesOf c) w = ((w.overrides? c).elim (.error .unknownName) .ok, w) := by
  simp only [overridesOf, Workspace.overrides?, exec_bind, exec_get, exec_present]
  cases c.overrides <;> rfl

theorem exec_setOverrides {w : Workspace} {c : Config} {place : Nat} (h : c.overrides = some place)
    (t : Table) :
    exec (setOverrides c t) w = (.ok (), { w with tables := w.tables.set place t }) := by
  simp only [setOverrides, exec_bind, exec_present, h, Option.elim_some, exec_modify]

/-! ## Files -/

/-- What loading a file gives. -/
def Workspace.loads (w : Workspace) (path : String) : Except Fault Table :=
  match List.lookup path w.loaded with
  | some t => .ok t
  | none => ((w.files.content? path).getD .empty).table path

/-- What laying the files at some paths over a table gives, with the files that exist. -/
def Workspace.lays (w : Workspace) :
    List String → Table → List String → Except Fault (Table × List String)
  | [], t, found => .ok (t, found)
  | path :: paths, t, found =>
    match w.files.find? path with
    | none => w.lays paths t found
    | some file =>
      match w.loads file with
      | .error f => .error f
      | .ok loaded =>
        match w.room.lay t loaded with
        | .error f => .error f
        | .ok t' => w.lays paths t' (found ++ [file])

/-- Two workspaces in which the same files load to the same, under the same environment. -/
structure Workspace.SameFiles (w w' : Workspace) : Prop where
  room : w'.room = w.room
  files : w'.files = w.files
  environment : w'.environment = w.environment
  loads : w'.loads = w.loads

namespace Workspace.SameFiles

variable {w w' w'' : Workspace}

theorem refl (w : Workspace) : SameFiles w w := ⟨rfl, rfl, rfl, rfl⟩

theorem symm (h : SameFiles w w') : SameFiles w' w :=
  ⟨h.room.symm, h.files.symm, h.environment.symm, h.loads.symm⟩

theorem trans (h : SameFiles w w') (h' : SameFiles w' w'') : SameFiles w w'' :=
  ⟨h'.room.trans h.room, h'.files.trans h.files, h'.environment.trans h.environment,
    h'.loads.trans h.loads⟩

theorem lays (h : SameFiles w w') (paths : List String) (t : Table) (found : List String) :
    w'.lays paths t found = w.lays paths t found := by
  induction paths generalizing t found with
  | nil => rfl
  | cons path paths ih =>
    rw [Workspace.lays, Workspace.lays, h.files, h.loads, h.room]
    split
    · exact ih t found
    · split
      · rfl
      · split
        · rfl
        · exact ih _ _

end Workspace.SameFiles

/-- Nothing differs but which files are loaded already, and what was reported. -/
structure Workspace.Quiet (w w' : Workspace) : Prop extends SameFiles w w' where
  tables : w'.tables = w.tables
  configs : w'.configs = w.configs

theorem Workspace.Quiet.refl (w : Workspace) : Quiet w w := ⟨.refl w, rfl, rfl⟩

theorem Workspace.Quiet.trans {w w' w'' : Workspace} (h : Quiet w w') (h' : Quiet w' w'') :
    Quiet w w'' :=
  ⟨h.toSameFiles.trans h'.toSameFiles, h'.tables.trans h.tables, h'.configs.trans h.configs⟩

/-- A file that was loaded gives the same ever after. -/
theorem Workspace.loads_cons {w : Workspace} {path : String} {t : Table}
    (h : w.loads path = .ok t) :
    Workspace.loads { w with loaded := (path, t) :: w.loaded } = w.loads := by
  funext p
  by_cases hp : p = path
  · subst hp
    rw [h, loads, List.lookup_cons_self]
  · simp only [loads, List.lookup_cons, beq_false_of_ne hp]

theorem exec_load (w : Workspace) (path : String) :
    ∃ w', exec (load path) w = (w.loads path, w') ∧ w.Quiet w' := by
  cases hloaded : List.lookup path w.loaded with
  | some t =>
    refine ⟨w, ?_, .refl w⟩
    simp only [load, Workspace.loads, exec_bind, exec_get, hloaded, exec_pure]
  | none =>
    cases htable : ((w.files.content? path).getD .empty).table path with
    | error f =>
      refine ⟨w, ?_, .refl w⟩
      simp only [load, Workspace.loads, exec_bind, exec_get, hloaded, exec_liftM, htable]
    | ok t =>
      have hloads : w.loads path = .ok t := by
        simp only [Workspace.loads, hloaded, htable]
      refine ⟨{ w with loaded := (path, t) :: w.loaded }, ?_,
        ⟨⟨rfl, rfl, rfl, Workspace.loads_cons hloads⟩, rfl, rfl⟩⟩
      rw [hloads]
      simp only [load, exec_bind, exec_get, hloaded, exec_liftM, htable, exec_modify, exec_pure]

theorem exec_loadAll (w : Workspace) (paths : List String) (t : Table) (found : List String) :
    ∃ w', exec (loadAll paths t found) w = (w.lays paths t found, w') ∧ w.Quiet w' := by
  induction paths generalizing w t found with
  | nil => exact ⟨w, rfl, .refl w⟩
  | cons path paths ih =>
    cases hfile : w.files.find? path with
    | none =>
      obtain ⟨w', hexec, hquiet⟩ := ih w t found
      refine ⟨w', ?_, hquiet⟩
      simp only [loadAll, Workspace.lays, exec_bind, exec_get, hfile]
      exact hexec
    | some file =>
      obtain ⟨w', hload, hquiet⟩ := exec_load w file
      cases hloads : w.loads file with
      | error f =>
        refine ⟨w', ?_, hquiet⟩
        rw [hloads] at hload
        simp only [loadAll, Workspace.lays, exec_bind, exec_get, hfile, hload, hloads]
      | ok loaded =>
        rw [hloads] at hload
        cases hlay : w.room.lay t loaded with
        | error f =>
          refine ⟨w', ?_, hquiet⟩
          simp only [loadAll, Workspace.lays, exec_bind, exec_get, hfile, hload, hloads, exec_liftM,
            hquiet.room, hlay]
        | ok t' =>
          obtain ⟨w'', hexec, hquiet'⟩ := ih w' t' (found ++ [file])
          refine ⟨w'', ?_, hquiet.trans hquiet'⟩
          rw [hquiet.toSameFiles.lays] at hexec
          simp only [loadAll, Workspace.lays, exec_bind, exec_get, hfile, hload, hloads, exec_liftM,
            hquiet.room, hlay, hexec]

theorem exec_reports (w : Workspace) (line : String → String) (files : List String) :
    ∃ lines, exec (forIn files PUnit.unit fun file _ => do
        report (line file)
        pure (ForInStep.yield PUnit.unit)) w = (.ok PUnit.unit, { w with log := lines }) := by
  induction files generalizing w with
  | nil => exact ⟨w.log, rfl⟩
  | cons file files ih =>
    obtain ⟨lines, h⟩ := ih { w with log := w.log ++ [line file] }
    refine ⟨lines, ?_⟩
    rw [List.forIn_cons]
    simp only [exec_bind, report, exec_modify, exec_pure]
    exact h

end DateSpan.Settings
