import DateSpan.Proofs.Settings.Session

/-! Readings of one configuration. What a reading gives, and what the configuration keeps of it, depends
on the configuration alone with what lies around it: the files, the environment and its overrides. -/

namespace DateSpan.Settings

open Session

structure Surroundings where
  room : Room
  /-- The files at some paths laid over one another, with those that exist. -/
  lay : List String → Except Fault (Table × List String)
  environment : Environment
  overrides : Option Table

def Workspace.around (w : Workspace) (c : Config) : Surroundings :=
  ⟨w.room, fun paths => w.lays paths [] [], w.environment, w.overrides? c⟩

/-- Whether the files ask for the lines that tell which of them were loaded. -/
def asksForLoads (t : Table) : Bool :=
  ((t.get? Key.debugFileLoads.name).map Datum.truthy).getD false

namespace Config

/-- The files of a configuration, and the configuration that has asked for them. -/
def loading (c : Config) (s : Surroundings) : Except Fault Table × Config :=
  match c.loaded, c.paths with
  | some t, _ => (.ok t, c)
  | none, none => (.error .unknownName, c)
  | none, some paths =>
    match s.lay paths with
    | .error f => (.error f, c)
    | .ok (t, found) =>
      if asksForLoads t && c.locked.isNone then
        (.error .unknownName, { c with found := some (some found) })
      else (.ok t, { c with found := some (some found), loaded := some t })

/-- The files with the overrides over them. -/
def merging (c : Config) (s : Surroundings) : Except Fault Table × Config :=
  match c.merged with
  | some t => (.ok t, c)
  | none =>
    match c.loading s with
    | (.error f, c') => (.error f, c')
    | (.ok t, c') =>
      match s.overrides with
      | none => (.error .unknownName, c')
      | some o =>
        match s.room.merge t o with
        | .error f => (.error f, c')
        | .ok u => (.ok u, { c' with merged := some u })

/-- The value of a setting: an override, or else what the environment has for it. -/
def choosing (c : Config) (s : Surroundings) (k : Key) (d : Datum) : Except Fault Datum :=
  match s.overrides with
  | none => .error .unknownName
  | some o =>
    if o.has k.name then .ok d
    else
      match c.locked with
      | none => .error .unknownName
      | some locked =>
        if locked.truthy then .ok d
        else (k.fromEnvironment s.room s.environment).map fun found => found.getD d

/-- The value of a setting for which the merged table has some datum, or none. -/
def settling (c : Config) (s : Surroundings) (k : Key) : Option Datum → Except Fault Datum
  | none => .error (.missingKey k.name)
  | some found => do
    let d ← c.choosing s k found
    if k.kind.admits d then return d
    throw (.misconfigured k.name)

/-- A setting, kept once it has a value. -/
def reading (c : Config) (s : Surroundings) (k : Key) : Except Fault Datum × Config :=
  match List.lookup k c.values with
  | some d => (.ok d, c)
  | none =>
    match c.merging s with
    | (.error f, c') => (.error f, c')
    | (.ok t, c') =>
      match c.settling s k (t.get? k.name) with
      | .error f => (.error f, c')
      | .ok d => (.ok d, { c' with values := (k, d) :: c'.values })

/-- The configurations have the same files, overrides and lock, whatever they keep of readings. -/
structure SameParts (c c' : Config) : Prop where
  paths : c'.paths = c.paths
  overrides : c'.overrides = c.overrides
  locked : c'.locked = c.locked

theorem SameParts.symm {c c' : Config} (h : c.SameParts c') : c'.SameParts c :=
  ⟨h.paths.symm, h.overrides.symm, h.locked.symm⟩

theorem SameParts.trans {c c' c'' : Config} (h : c.SameParts c') (h' : c'.SameParts c'') :
    c.SameParts c'' :=
  ⟨h'.paths.trans h.paths, h'.overrides.trans h.overrides, h'.locked.trans h.locked⟩

theorem loading_cases (c : Config) (s : Surroundings) :
    (c.loading s).2 = c ∨ ∃ paths t files, c.paths = some paths ∧ s.lay paths = .ok (t, files) ∧
      ((c.loading s).2 = { c with found := some (some files) } ∨
        (c.loading s).2 = { c with found := some (some files), loaded := some t }) := by
  unfold loading
  split
  · exact .inl rfl
  · exact .inl rfl
  · rename_i paths hloaded hpaths
    split
    · exact .inl rfl
    · rename_i t files hlay
      refine .inr ⟨paths, t, files, hpaths, hlay, ?_⟩
      split
      · exact .inl rfl
      · exact .inr rfl

theorem merging_cases (c : Config) (s : Surroundings) :
    (c.merging s).2 = c ∨ (c.merging s).2 = (c.loading s).2 ∨
      ∃ t, c.merging s = (.ok t, { (c.loading s).2 with merged := some t }) := by
  unfold merging
  split
  · exact .inl rfl
  · generalize c.loading s = files
    split
    · exact .inr (.inl rfl)
    · split
      · exact .inr (.inl rfl)
      · split
        · exact .inr (.inl rfl)
        · exact .inr (.inr ⟨_, rfl⟩)

theorem reading_cases (c : Config) (s : Surroundings) (k : Key) :
    (∃ d, List.lookup k c.values = some d ∧ c.reading s k = (.ok d, c)) ∨
    (List.lookup k c.values = none ∧
      ((∃ f, c.reading s k = (.error f, (c.merging s).2)) ∨
        ∃ d, c.reading s k =
          (.ok d, { (c.merging s).2 with values := (k, d) :: (c.merging s).2.values }))) := by
  unfold reading
  split
  · rename_i d hvalue
    exact .inl ⟨d, hvalue, rfl⟩
  · rename_i hvalue
    refine .inr ⟨hvalue, ?_⟩
    generalize c.merging s = merged
    split
    · exact .inl ⟨_, rfl⟩
    · split
      · exact .inl ⟨_, rfl⟩
      · exact .inr ⟨_, rfl⟩

theorem loading_sameParts (c : Config) (s : Surroundings) : c.SameParts (c.loading s).2 := by
  rcases c.loading_cases s with h | ⟨paths, t, files, -, -, h | h⟩
  all_goals
    rw [h]
    exact ⟨rfl, rfl, rfl⟩

theorem merging_sameParts (c : Config) (s : Surroundings) : c.SameParts (c.merging s).2 := by
  have hload := c.loading_sameParts s
  rcases c.merging_cases s with h | h | ⟨t, h⟩
  · rw [h]
    exact ⟨rfl, rfl, rfl⟩
  · rw [h]
    exact hload
  · rw [h]
    exact ⟨hload.paths, hload.overrides, hload.locked⟩

theorem reading_sameParts (c : Config) (s : Surroundings) (k : Key) :
    c.SameParts (c.reading s k).2 := by
  have hmerge := c.merging_sameParts s
  rcases c.reading_cases s k with ⟨d, -, h⟩ | ⟨-, ⟨f, h⟩ | ⟨d, h⟩⟩
  · rw [h]
    exact ⟨rfl, rfl, rfl⟩
  · rw [h]
    exact hmerge
  · rw [h]
    exact ⟨hmerge.paths, hmerge.overrides, hmerge.locked⟩

theorem SameParts.choosing {c c' : Config} (h : c.SameParts c') (s : Surroundings) (k : Key)
    (d : Datum) : c'.choosing s k d = c.choosing s k d := by
  unfold Config.choosing
  rw [h.locked]

end Config

/-- Nothing differs but one configuration, what is loaded already, and what was reported. -/
structure Workspace.Became (w w' : Workspace) (name : String) (c : Config) : Prop
    extends SameFiles w w' where
  tables : w'.tables = w.tables
  config : List.lookup name w'.configs = some c
  others : ∀ other, other ≠ name → List.lookup other w'.configs = List.lookup other w.configs

namespace Workspace

variable {w w' w'' : Workspace} {name : String} {c c' : Config}

theorem Quiet.became (h : Quiet w w') (hc : List.lookup name w.configs = some c) :
    Became w w' name c where
  toSameFiles := h.toSameFiles
  tables := h.tables
  config := h.configs ▸ hc
  others other _ := congrArg (List.lookup other) h.configs

theorem Became.withConfig (h : Became w w' name c) (c' : Config) :
    Became w (w'.withConfig name c') name c' where
  toSameFiles := h.toSameFiles.trans ⟨rfl, rfl, rfl, rfl⟩
  tables := h.tables
  config := w'.lookup_withConfig name c'
  others other hne := (w'.lookup_withConfig_ne c' hne).trans (h.others other hne)

theorem Became.withLog (h : Became w w' name c) (lines : List String) :
    Became w { w' with log := lines } name c where
  toSameFiles := h.toSameFiles.trans ⟨rfl, rfl, rfl, rfl⟩
  tables := h.tables
  config := h.config
  others := h.others

theorem SameFiles.around (h : SameFiles w w') (ho : w'.overrides? c' = w.overrides? c) :
    w'.around c' = w.around c := by
  have hlays := funext fun paths => h.lays paths [] []
  rw [Workspace.around, Workspace.around, hlays, h.room, h.environment, ho]

theorem Became.around {c₀ : Config} (h : Became w w' name c') (hc : c'.overrides = c₀.overrides) :
    w'.around c' = w.around c₀ := by
  apply h.toSameFiles.around
  rw [overrides?, overrides?, h.tables, hc]

end Workspace

open Workspace

/-! ## Each reading of a workspace is one of the configuration -/

variable {w : Workspace} {name : String} {c : Config}

/-- Whether or not the loaded files are announced, what comes next is done. -/
theorem exec_announce {α : Type} (w : Workspace) (wanted : Bool) (files : List String)
    (next : Session α) :
    ∃ lines, exec (do
        if wanted || ((← get).environment.get? Key.debugFileLoads.variableName).getD "" != "" then
          for file in files do
            report ("Loaded config file " ++ file)
        next) w = exec next { w with log := lines } := by
  simp only [exec_bind, exec_get]
  split
  · obtain ⟨lines, h⟩ := exec_reports w ("Loaded config file " ++ ·) files
    refine ⟨lines, ?_⟩
    rw [exec_bind, h]
  · exact ⟨w.log, rfl⟩

/-- Files once found are kept, unless it cannot be told whether to announce them. -/
theorem exec_keepLoaded (w : Workspace) (name : String) (c : Config) (t : Table)
    (files : List String) :
    ∃ lines, exec (do
        let wanted ←
          if asksForLoads t then (fun d : Datum => !d.truthy) <$> present c.locked else pure false
        if wanted || ((← get).environment.get? Key.debugFileLoads.variableName).getD "" != "" then
          for file in files do
            report ("Loaded config file " ++ file)
        putConfig name { c with loaded := some t }
        return t) w =
      if asksForLoads t && c.locked.isNone then (.error .unknownName, w)
      else (.ok t, Workspace.withConfig { w with log := lines } name { c with loaded := some t }) := by
  have hannounce : ∀ wanted, ∃ lines, exec (do
        if wanted || ((← get).environment.get? Key.debugFileLoads.variableName).getD "" != "" then
          for file in files do
            report ("Loaded config file " ++ file)
        putConfig name { c with loaded := some t }
        return t) w =
      (.ok t, Workspace.withConfig { w with log := lines } name { c with loaded := some t }) :=
    fun wanted => exec_announce w wanted files _
  cases hasks : asksForLoads t with
  | false => exact hannounce false
  | true =>
    cases hlocked : c.locked with
    | none => exact ⟨w.log, rfl⟩
    | some locked =>
      rw [hlocked] at hannounce
      exact hannounce (!locked.truthy)

theorem exec_fileTable (h : List.lookup name w.configs = some c) :
    ∃ w', exec (fileTable name) w = ((c.loading (w.around c)).1, w') ∧
      Became w w' name (c.loading (w.around c)).2 := by
  have hself := (Quiet.refl w).became h
  simp only [fileTable, exec_bind, exec_getConfig h]
  obtain ⟨paths, overrides, locked, values, merged, loaded, found, sourced⟩ := c
  cases loaded with
  | some t => exact ⟨w, rfl, hself⟩
  | none =>
    cases paths with
    | none => exact ⟨w, rfl, hself⟩
    | some paths =>
      obtain ⟨w', hload, hquiet⟩ := exec_loadAll w paths [] []
      have hbecame := hquiet.became h
      simp only [exec_bind, exec_present, Option.elim_some, hload, Config.loading,
        Workspace.around]
      cases hlay : w.lays paths [] [] with
      | error f => exact ⟨w', rfl, hbecame⟩
      | ok laid =>
        obtain ⟨t, files⟩ := laid
        have hfound := hbecame.withConfig
          ⟨some paths, overrides, locked, values, merged, none, some (some files), sourced⟩
        obtain ⟨lines, hlines⟩ := exec_keepLoaded (w'.withConfig name
          ⟨some paths, overrides, locked, values, merged, none, some (some files), sourced⟩) name
          ⟨some paths, overrides, locked, values, merged, none, some (some files), sourced⟩ t files
        simp only [exec_putConfig]
        cases hlost : asksForLoads t && locked.isNone with
        | true =>
          simp only [hlost, if_true] at hlines ⊢
          exact ⟨_, hlines, hfound⟩
        | false =>
          simp only [hlost, Bool.false_eq_true, if_false] at hlines ⊢
          exact ⟨_, hlines, (hfound.withLog lines).withConfig _⟩

theorem exec_mergedTable (h : List.lookup name w.configs = some c) :
    ∃ w', exec (mergedTable name) w = ((c.merging (w.around c)).1, w') ∧
      Became w w' name (c.merging (w.around c)).2 := by
  have hself := (Quiet.refl w).became h
  simp only [mergedTable, exec_bind, exec_getConfig h]
  unfold Config.merging
  cases hmerged : c.merged with
  | some t => exact ⟨w, rfl, hself⟩
  | none =>
    obtain ⟨w', hload, hbecame⟩ := exec_fileTable h
    have hparts := c.loading_sameParts (w.around c)
    have haround := hbecame.around hparts.overrides
    simp only [exec_bind, hload]
    generalize c.loading (w.around c) = files at hbecame haround
    obtain ⟨outcome, c'⟩ := files
    cases outcome with
    | error f => exact ⟨w', rfl, hbecame⟩
    | ok t =>
      have hoverrides : w'.overrides? c' = (w.around c).overrides :=
        congrArg Surroundings.overrides haround
      have hroom : w'.room = (w.around c).room := congrArg Surroundings.room haround
      simp only [exec_getConfig hbecame.config, exec_get, exec_overridesOf, exec_liftM,
        hoverrides, hroom]
      cases (w.around c).overrides with
      | none => exact ⟨w', rfl, hbecame⟩
      | some o =>
        simp only [Option.elim_some]
        cases (w.around c).room.merge t o with
        | error f => exact ⟨w', rfl, hbecame⟩
        | ok u => exact ⟨_, rfl, hbecame.withConfig _⟩

theorem exec_chosen (w : Workspace) (c : Config) (k : Key) (d : Datum) :
    exec (chosen c k d) w = (c.choosing (w.around c) k d, w) := by
  simp only [chosen, Config.choosing, Workspace.around, exec_bind, exec_overridesOf]
  cases w.overrides? c with
  | none => rfl
  | some o =>
    simp only [Option.elim_some]
    split
    · rfl
    · simp only [exec_bind, exec_present]
      cases c.locked with
      | none => rfl
      | some locked =>
        simp only [Option.elim_some]
        split
        · rfl
        · simp only [exec_bind, exec_get, exec_liftM]
          cases k.fromEnvironment w.room w.environment <;> rfl

theorem exec_read (h : List.lookup name w.configs = some c) (k : Key) :
    ∃ w', exec (read name k) w = ((c.reading (w.around c) k).1, w') ∧
      Became w w' name (c.reading (w.around c) k).2 := by
  have hself := (Quiet.refl w).became h
  simp only [read, exec_bind, exec_getConfig h]
  unfold Config.reading
  cases hvalue : List.lookup k c.values with
  | some d => exact ⟨w, rfl, hself⟩
  | none =>
    obtain ⟨w', hmerge, hbecame⟩ := exec_mergedTable h
    have hparts := c.merging_sameParts (w.around c)
    have haround := hbecame.around hparts.overrides
    simp only [exec_bind, hmerge]
    generalize c.merging (w.around c) = data at hbecame haround hparts
    obtain ⟨outcome, c'⟩ := data
    cases outcome with
    | error f => exact ⟨w', rfl, hbecame⟩
    | ok t =>
      simp only
      cases t.get? k.name with
      | none => exact ⟨w', rfl, hbecame⟩
      | some found =>
        have hchoose := hparts.choosing (w.around c) k found
        simp only [exec_bind, exec_getConfig hbecame.config, exec_chosen, haround, hchoose,
          Config.settling]
        cases c.choosing (w.around c) k found with
        | error f => exact ⟨w', rfl, hbecame⟩
        | ok d =>
          simp only [bind, Except.bind]
          cases k.kind.admits d with
          | false => exact ⟨w', rfl, hbecame⟩
          | true => exact ⟨_, rfl, hbecame.withConfig _⟩

end DateSpan.Settings
