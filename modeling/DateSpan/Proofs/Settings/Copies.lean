import DateSpan.Proofs.Settings.Coherence

/-! Copies. A copy is new but for the settings that its source has read: of these it keeps the values,
whatever its own overrides and lock are. -/

namespace DateSpan.Settings

open Session Workspace

namespace Config

variable {c : Config} {s s' : Surroundings} {k : Key}

theorem LoadedRight.congr (h : c.LoadedRight s) (hlay : s'.lay = s.lay) : c.LoadedRight s' := by
  intro paths t hpaths ht
  rw [hlay]
  exact h paths t hpaths ht

theorem forget_loadedRight (h : c.LoadedRight s) (key : Datum) : (c.forget key).LoadedRight s := by
  unfold forget
  cases key.asText?.bind Part.ofName? with
  | none => exact h
  | some part =>
    intro paths t hpaths ht
    cases part with
    | paths => cases hpaths
    | loaded => cases ht
    | _ => exact h paths t hpaths ht

theorem alter_loadedRight (h : c.LoadedRight s) (step : Step) : (step.alter c s).LoadedRight s := by
  rcases step.alter_forms c s with hc | ⟨j, hc⟩ | ⟨key, hc⟩
  · rw [hc]
    exact h
  · rw [hc]
    exact reading_loadedRight h j
  · rw [hc]
    exact forget_loadedRight h key

/-- The copy of a configuration. -/
def copyOf (c : Config) (given : Option Nat) (locked : Datum) : Config :=
  { c with overrides := given.or c.overrides, locked := some locked, merged := none }

theorem copyOf_currentAt (h : c.LoadedRight s) (hpaths : c.paths.isSome) (given : Option Nat)
    (locked : Datum) : (c.copyOf given locked).CurrentAt s k := by
  refine ⟨hpaths, rfl, h, ?_⟩
  intro t ht
  cases ht

theorem copyOf_mergesKept (c : Config) (given : Option Nat) (locked : Datum) (s : Surroundings) :
    (c.copyOf given locked).MergesKept s := by
  intro hmerged
  cases hmerged

end Config

namespace Workspace

variable {w w' : Workspace} {name target : String} {c : Config} {s : Surroundings} {k : Key}

theorem after_copy (h : List.lookup name w.configs = some c) (target : String) (given : Option Nat)
    (locked : Datum) :
    (copy name target given locked).after w =
      { w.withConfig target (c.copyOf given locked) with log := [] } := by
  rw [after_eq]
  simp only [copy, exec_bind, exec_getConfig (w := { w with log := [] }) h]
  rfl

theorem SameFiles.lay (h : SameFiles w w') (c d : Config) : (w'.around d).lay = (w.around c).lay :=
  funext fun paths => h.lays paths [] []

theorem sameFiles_copy (h : List.lookup name w.configs = some c) (target : String)
    (given : Option Nat) (locked : Datum) :
    SameFiles w ((copy name target given locked).after w) := by
  rw [after_copy h]
  exact ⟨rfl, rfl, rfl, rfl⟩

theorem lookup_copy (h : List.lookup name w.configs = some c) (target : String)
    (given : Option Nat) (locked : Datum) :
    List.lookup target ((copy name target given locked).after w).configs =
      some (c.copyOf given locked) := by
  rw [after_copy h]
  exact lookup_withConfig ..

theorem tables_copy (h : List.lookup name w.configs = some c) (target : String)
    (given : Option Nat) (locked : Datum) :
    ((copy name target given locked).after w).tables = w.tables := by
  rw [after_copy h]
  rfl

/-- Whatever the steps are, what is loaded stays right. -/
theorem loadedRight_run (hc : List.lookup name w.configs = some c)
    (hloaded : c.LoadedRight (w.around c)) (steps : List Step) :
    ∃ c', List.lookup name (w.runOn name steps).configs = some c' ∧
      c'.LoadedRight ((w.runOn name steps).around c') := by
  induction steps generalizing w c with
  | nil => exact ⟨c, hc, hloaded⟩
  | cons step steps ih =>
    have hstep := stepped_on hc step
    exact ih hstep.config
      ((Config.alter_loadedRight hloaded step).congr (hstep.toSameFiles.lay c _))

theorem around_read (h : List.lookup name w.configs = some c) (j : Key) :
    Workspace.around (((Step.read j).on name).after w) ((Step.read j).alter c (w.around c)) =
      w.around c := by
  have hstep := stepped_on h (.read j)
  have hparts := c.reading_sameParts (w.around c) j
  apply hstep.toSameFiles.around
  rw [overrides?, overrides?, hstep.tables, Step.alter, hparts.overrides]
  cases c.overrides with
  | none => rfl
  | some place =>
    have hkept := List.modify_id place w.tables
    exact congrArg (fun tables => some (tables[place]?.getD [])) hkept

/-- Readings in turn each give what is kept or is read afresh. -/
theorem outcome_readings (hc : List.lookup name w.configs = some c)
    (hcurrent : c.CurrentAt (w.around c) k) (hkept : c.MergesKept (w.around c)) (keys : List Key) :
    (read name k).outcome (w.runOn name (keys.map .read)) = c.answer (w.around c) k := by
  induction keys generalizing w c with
  | nil => exact (outcome_read hc k).trans (hcurrent.reading_fst hkept)
  | cons j keys ih =>
    have haround := around_read hc j
    rw [List.map_cons, runOn, ih (stepped_on hc (.read j)).config, haround]
    · exact hcurrent.answer_reading hkept j
    · rw [haround]
      exact hcurrent.reading j
    · rw [haround]
      exact hcurrent.mergesKept_reading hkept j

end Workspace

/-- A setting that was read before the copying is read from the copy as it was, whatever the copy's
own overrides and lock are; any other is read as in a configuration that is made with these. The table
that is given may be one that was made since. -/
theorem read_copy (start : Workspace) (name target fresh : String) (paths₀ : List String)
    (initial : Option Nat) (locked₀ : Datum) (steps : List Step) (more : List Table) {w : Workspace}
    {c : Config} {paths : List String} (given : Option Nat) (locked : Datum)
    (hw : w = Workspace.withTables
      (((create name paths₀ initial locked₀).after start).runOn name steps) more)
    (hc : List.lookup name w.configs = some c) (hpaths : c.paths = some paths)
    (hplace : (given.or c.overrides).isSome) (reads : List Key) (k : Key) :
    let copied := ((copy name target given locked).after w).runOn target (reads.map .read)
    (∀ d, List.lookup k c.values = some d →
      (read name k).outcome w = .ok d ∧ (read target k).outcome copied = .ok d) ∧
    (List.lookup k c.values = none →
      (read target k).outcome copied =
        (read fresh k).outcome
          ((createWith fresh paths (w.tableAt (given.or c.overrides)) locked).after w)) := by
  intro copied
  obtain ⟨-, place₀, hmade⟩ := has_created start name paths₀ initial locked₀
  obtain ⟨c', hc', hloaded⟩ := loadedRight_run hmade.config
    ((Config.made_coherent paths₀ place₀ locked₀ _).current .quiet).loaded steps
  have hsince : SameFiles (((create name paths₀ initial locked₀).after start).runOn name steps) w :=
    hw ▸ ⟨rfl, rfl, rfl, rfl⟩
  have hsame : c' = c := by
    rw [hw] at hc
    exact Option.some.inj (hc'.symm.trans hc)
  subst hsame
  have htarget := lookup_copy hc target given locked
  have hfiles := sameFiles_copy hc target given locked
  have hcurrent := Config.copyOf_currentAt (k := k)
    (hloaded.congr ((hsince.trans hfiles).lay c' (c'.copyOf given locked)))
    (Option.isSome_of_eq_some hpaths) given locked
  have hanswer := outcome_readings htarget hcurrent (c'.copyOf_mergesKept given locked _) reads
  refine ⟨fun d hd => ⟨?_, ?_⟩, fun hnone => ?_⟩
  · rw [outcome_read hc, Config.reading_of_kept hd]
  · rw [hanswer]
    simp only [Config.answer, Config.copyOf, hd, Option.elim_some]
  · obtain ⟨place, hplace⟩ := Option.isSome_iff_exists.mp hplace
    have ht : overrides? ((copy name target given locked).after w) (c'.copyOf given locked) =
        some (w.tableAt (given.or c'.overrides)) := by
      rw [overrides?, Config.copyOf, hplace, tables_copy hc]
      rfl
    rw [hanswer, outcome_createdWith, ← hfiles.afresh,
      ← afresh_eq (c := c'.copyOf given locked) hpaths rfl ht]
    simp only [Config.answer, Config.copyOf, hnone, Option.elim_none]

/-- An override that is given to the copy of a configuration that has read the setting has no effect. -/
theorem read_copy_stale :
    let start := { Workspace.ofFiles (.ample 0) [] with tables := [[("quiet", .bool false)]] }
    let w := Workspace.withTables (((create "c" [] (some 0) (.bool false)).after start).runOn "c"
      [.read .quiet]) [[("quiet", .bool true)]]
    (read "d" .quiet).outcome ((copy "c" "d" (some 1) (.bool false)).after w) = .ok (.bool false) ∧
    (read "e" .quiet).outcome
      ((createWith "e" [] [("quiet", .bool true)] (.bool false)).after w) = .ok (.bool true) := by
  intro start w
  have hc : List.lookup "c" w.configs =
      some ⟨some [], some 0, some (.bool false), [(.quiet, .bool false)],
        some [("quiet", .bool false)], some [], some (some []), none⟩ := rfl
  have hread := read_copy start "c" "d" "e" [] (some 0) (.bool false) [.read .quiet]
    [[("quiet", .bool true)]] (some 1) (.bool false) rfl hc rfl rfl [] .quiet
  refine ⟨(hread.1 (.bool false) rfl).2, ?_⟩
  rw [outcome_createdWith]
  rfl

end DateSpan.Settings
