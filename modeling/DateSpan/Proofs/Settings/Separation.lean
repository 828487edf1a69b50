import DateSpan.Proofs.Settings.Copies

/-! A configuration and its copy side by side. What is done with one of them is not seen by the other,
unless the two share their overrides: then it may be seen of the settings that it touches, and of all
where it leaves no room to merge the overrides. -/

namespace DateSpan.Settings

open Session Workspace

namespace Config

variable {c c' : Config} {s s' : Surroundings} {t : Table} {k : Key}

theorem overrides_of_forget {key : Datum} {place : Nat} (h : (c.forget key).overrides = some place) :
    c.overrides = some place := by
  unfold forget at h
  cases hpart : key.asText?.bind Part.ofName? with
  | none =>
    rw [hpart] at h
    exact h
  | some part =>
    rw [hpart] at h
    cases part with
    | overrides => cases h
    | _ => exact h

/-- A step gives a configuration no other place for its overrides. -/
theorem overrides_of_alter {step : Step} {place : Nat} (h : (step.alter c s).overrides = some place) :
    c.overrides = some place := by
  rcases step.alter_forms c s with hc | ⟨j, hc⟩ | ⟨key, hc⟩
  · rwa [hc] at h
  · rw [hc] at h
    exact (c.reading_sameParts s j).overrides.symm.trans h
  · rw [hc] at h
    exact overrides_of_forget h

theorem alter_override (c : Config) (hs : s.overrides = some t) (k : Key) (d : Datum) :
    (Step.override k.name d).alter c s = c.forget k.name := by
  simp only [Step.alter, k.named?_name, hs]

theorem alter_remove (c : Config) (hs : s.overrides = some t) (k : Key) :
    (Step.remove k.name).alter c s = if t.has k.name then c.forget k.name else c := by
  simp only [Step.alter, hs, Option.any_some, Datum.isHashable, Bool.true_and]

/-- Nothing is held of a setting that was forgotten but what is due. -/
theorem held_forget (c : Config) (s : Surroundings) (k : Key) :
    (c.forget k.name).held s k = c.due s k := by
  rw [held, lookup_forget, if_pos rfl, due_sameParts (c.forget_sameParts k)]
  rfl

theorem held_remove (c : Config) (hs : s.overrides = some t) (k : Key) :
    ((Step.remove k.name).alter c s).held (s.amended (.remove k.name)) k =
      if t.has k.name then c.due (s.amended (.remove k.name)) k else c.held s k := by
  rw [c.alter_remove hs]
  cases ht : t.has k.name with
  | true => exact c.held_forget _ k
  | false =>
    have hamend := (Step.amend_remove k t).trans (Table.erase_of_not_has ht)
    rw [Surroundings.amended_of_amend hs hamend]
    rfl

end Config

theorem Step.amend_under_congr {t t' : Table} {k : Key} (h : t'.under k.name = t.under k.name)
    (step : Step) : (step.amend t').under k.name = (step.amend t).under k.name := by
  by_cases htouch : step.Touches k
  · cases step with
    | read j => exact h
    | override key d =>
      cases htouch
      rw [amend_override, amend_override, Table.under_put_self, Table.under_put_self, h]
    | remove key =>
      cases htouch
      rw [amend_remove, amend_remove, Table.under_erase_self, Table.under_erase_self]
  · rw [step.amend_under htouch, step.amend_under htouch, h]

/-- A table of overrides as steps amend it in turn, whichever configuration they are on. -/
def amended (steps : List (String × Step)) (t : Table) : Table :=
  steps.foldl (fun t e => e.2.amend t) t

namespace Workspace

variable {w₀ w w' : Workspace} {x y : String} {paths : List String} {c c' d : Config} {t t' : Table}
  {k : Key}

/-! ## Overrides of their own -/

/-- One configuration in two workspaces, with another in the first that has other overrides. -/
structure Apart (w w' : Workspace) (x y : String) (c d : Config) : Prop
    extends SameFiles w w' where
  config : List.lookup x w.configs = some c
  config' : List.lookup x w'.configs = some c
  tables : ∀ place, c.overrides = some place → w'.tables[place]? = w.tables[place]?
  other : List.lookup y w.configs = some d
  apart : ∀ place, d.overrides = some place → c.overrides ≠ some place

theorem Apart.around (h : Apart w w' x y c d) : w'.around c = w.around c := by
  apply h.toSameFiles.around
  rw [overrides?, overrides?]
  cases ho : c.overrides with
  | none => rfl
  | some place => rw [Option.map_some, Option.map_some, h.tables place ho]

theorem Apart.outcome (h : Apart w w' x y c d) (k : Key) :
    (read x k).outcome w = (read x k).outcome w' := by
  rw [outcome_read h.config, outcome_read h.config', h.around]

theorem Apart.own (h : Apart w w' x y c d) (hne : y ≠ x) (step : Step) :
    Apart ((step.on x).after w) ((step.on x).after w') x y (step.alter c (w.around c)) d := by
  have hstep := stepped_on h.config step
  have hstep' := stepped_on h.config' step
  rw [h.around] at hstep'
  refine ⟨(hstep.toSameFiles.symm.trans h.toSameFiles).trans hstep'.toSameFiles, hstep.config,
    hstep'.config, fun place hplace => ?_, ?_, fun place hplace hc => ?_⟩
  · have ho := Config.overrides_of_alter hplace
    rw [hstep'.tables, hstep.tables, ho, Option.elim_some, Option.elim_some, List.getElem?_modify_eq,
      List.getElem?_modify_eq, h.tables place ho]
  · rw [hstep.others y hne, h.other]
  · exact h.apart place hplace (Config.overrides_of_alter hc)

theorem Apart.foreign (h : Apart w w' x y c d) (hne : y ≠ x) (step : Step) :
    Apart ((step.on y).after w) w' x y c (step.alter d (w.around d)) := by
  have hstep := stepped_on h.other step
  refine ⟨hstep.toSameFiles.symm.trans h.toSameFiles, ?_, h.config', fun place hplace => ?_,
    hstep.config, fun place hplace => ?_⟩
  · rw [hstep.others x hne.symm, h.config]
  · have hother : d.overrides ≠ some place := fun hd => h.apart place hd hplace
    rw [hstep.table_apart hother, h.tables place hplace]
  · exact h.apart place (Config.overrides_of_alter hplace)

/-! ## Shared overrides -/

/-- A configuration in two workspaces that differ in its overrides of other settings than one, with
another in the first that has the same overrides. -/
structure Paired (w₀ w w' : Workspace) (x y : String) (paths : List String) (k : Key)
    (c c' d : Config) (t t' : Table) : Prop where
  files : SameFiles w₀ w
  files' : SameFiles w₀ w'
  has : Has w x c t
  has' : Has w' x c' t'
  other : List.lookup y w.configs = some d
  place : d.overrides = c.overrides
  settings : OnSettings t
  settings' : OnSettings t'
  paths : c.paths = some paths
  current : c.CurrentAt (w.around c) k
  current' : c'.CurrentAt (w'.around c') k
  parts : c.SameParts c'
  under : t'.under k.name = t.under k.name

/-- In both workspaces the same is held of the setting. -/
structure Alike (w₀ w w' : Workspace) (x y : String) (paths : List String) (k : Key)
    (c c' d : Config) (t t' : Table) : Prop extends Paired w₀ w w' x y paths k c c' d t t' where
  held : c'.held (w'.around c') k = c.held (w.around c) k

theorem Paired.due (h : Paired w₀ w w' x y paths k c c' d t t') :
    c'.due (w'.around c') k = c.due (w.around c) k := by
  have hfiles := h.files.symm.trans h.files'
  have hagree : (w.around c).AgreeAt (w'.around c') k.name := by
    refine ⟨hfiles.room, hfiles.lay c c', hfiles.environment, ?_⟩
    rw [h.has.around, h.has'.around]
    exact congrArg some h.under
  rw [Config.due_congr hagree, Config.due_sameParts h.parts]

theorem Alike.outcome (h : Alike w₀ w w' x y paths k c c' d t t')
    (hmerges : ∀ f, ¬ w₀.Unmergeable paths t f) (hmerges' : ∀ f, ¬ w₀.Unmergeable paths t' f) :
    (read x k).outcome w = (read x k).outcome w' := by
  have hrefuses : ∀ f, ¬ c.Refuses (w.around c) f := by
    intro f hf
    apply hmerges f
    rwa [refuses_iff h.paths h.current.locked h.has.overrides?, h.files.unmergeable] at hf
  have hrefuses' : ∀ f, ¬ c'.Refuses (w'.around c') f := by
    intro f hf
    apply hmerges' f
    rwa [refuses_iff (h.parts.paths.trans h.paths) h.current'.locked h.has'.overrides?,
      h.files'.unmergeable] at hf
  rw [outcome_read h.has.config, outcome_read h.has'.config, h.current.reading_held hrefuses,
    h.current'.reading_held hrefuses', h.held]

theorem Paired.own (h : Paired w₀ w w' x y paths k c c' d t t') (hne : y ≠ x) (step : Step) :
    Paired w₀ ((step.on x).after w) ((step.on x).after w') x y paths k
      (step.alter c (w.around c)) (step.alter c' (w'.around c')) d (step.amend t) (step.amend t') := by
  have hstep := stepped_on h.has.config step
  have hstep' := stepped_on h.has'.config step
  have hparts := c.alter_sameParts h.has.around h.settings step
  have hparts' := c'.alter_sameParts h.has'.around h.settings' step
  exact {
    files := h.files.trans hstep.toSameFiles
    files' := h.files'.trans hstep'.toSameFiles
    has := h.has.step h.settings step
    has' := h.has'.step h.settings' step
    other := (hstep.others y hne).trans h.other
    place := h.place.trans hparts.overrides.symm
    settings := Step.amend_onSettings step h.settings
    settings' := Step.amend_onSettings step h.settings'
    paths := hparts.paths.trans h.paths
    current := by
      rw [h.has.around_step h.settings step]
      exact h.current.alter h.has.around h.settings step
    current' := by
      rw [h.has'.around_step h.settings' step]
      exact h.current'.alter h.has'.around h.settings' step
    parts := (hparts.symm.trans h.parts).trans hparts'
    under := Step.amend_under_congr h.under step }

theorem Alike.own (h : Alike w₀ w w' x y paths k c c' d t t') (hne : y ≠ x) (step : Step) :
    Alike w₀ ((step.on x).after w) ((step.on x).after w') x y paths k
      (step.alter c (w.around c)) (step.alter c' (w'.around c')) d (step.amend t)
      (step.amend t') := by
  have hpaired := h.toPaired.own hne step
  refine ⟨hpaired, ?_⟩
  have hs := h.has.around
  have hs' := h.has'.around
  rw [h.has.around_step h.settings step, h.has'.around_step h.settings' step]
  by_cases htouch : step.Touches k
  · -- the setting is forgotten in both, or its override is taken back where neither has one
    have hdue : c'.due ((w'.around c').amended step) k = c.due ((w.around c).amended step) k := by
      have hafter := hpaired.due
      rwa [h.has.around_step h.settings step, h.has'.around_step h.settings' step,
        Config.due_sameParts (c.alter_sameParts hs h.settings step),
        Config.due_sameParts (c'.alter_sameParts hs' h.settings' step)] at hafter
    cases step with
    | read j => exact htouch.elim
    | override key d =>
      cases htouch
      rw [c.alter_override hs, c'.alter_override hs', Config.held_forget, Config.held_forget, hdue]
    | remove key =>
      cases htouch
      have hhas : t'.has k.name = t.has k.name := by
        rw [Table.has_eq, Table.has_eq, h.under]
      rw [c.held_remove hs, c'.held_remove hs', hhas, hdue, h.held]
  · rw [h.current.held_alter hs h.settings htouch, h.current'.held_alter hs' h.settings' htouch, h.held]

/-- A step on the other configuration leaves the setting, if it does not touch it. -/
theorem Alike.foreign (h : Alike w₀ w w' x y paths k c c' d t t') (hne : y ≠ x) {step : Step}
    (htouch : ¬ step.Touches k) :
    Alike w₀ ((step.on y).after w) w' x y paths k c c' (step.alter d (w.around d)) (step.amend t)
      t' := by
  have hstep := stepped_on h.other step
  obtain ⟨place, ho, ht⟩ := h.has.table
  have hd : Has w y d t := ⟨h.other, place, h.place.trans ho, ht⟩
  have hagree := (w.around c).agreeAt_amended htouch
  have haround := hstep.around_shared h.place.symm h.place.symm hd.table
  exact {
    files := h.files.trans hstep.toSameFiles
    files' := h.files'
    has := ⟨(hstep.others x hne.symm).trans h.has.config, place, ho, hstep.table (h.place.trans ho) ht⟩
    has' := h.has'
    other := hstep.config
    place := (d.alter_sameParts hd.around h.settings step).overrides.trans h.place
    settings := Step.amend_onSettings step h.settings
    settings' := h.settings'
    paths := h.paths
    current := by
      rw [haround]
      exact h.current.congr hagree
    current' := h.current'
    parts := h.parts
    under := h.under.trans (step.amend_under htouch t).symm
    held := by
      rw [h.held, haround, Config.held, Config.held, Config.due_congr hagree] }

/-! ## Runs -/

/-- What holds of two workspaces with a table of overrides in each, and stays so under each step on one
configuration in both and on another in the first, holds after any run in the first and its steps on
the one in the second. -/
theorem runAll_own {R : Workspace → Table → Workspace → Table → Prop} (hne : y ≠ x)
    (hown : ∀ w t w' t' (step : Step), R w t w' t' →
      R ((step.on x).after w) (step.amend t) ((step.on x).after w') (step.amend t'))
    {steps : List (String × Step)}
    (hforeign : ∀ w t w' t' (step : Step), (y, step) ∈ steps → R w t w' t' →
      R ((step.on y).after w) (step.amend t) w' t')
    (hsteps : ∀ e ∈ steps, e.1 = x ∨ e.1 = y) (t t' : Table) (h : R w t w' t') :
    R (w.runAll steps) (amended steps t) (w'.runAll (steps.filter fun e => e.1 = x))
      (amended (steps.filter fun e => e.1 = x) t') := by
  induction steps generalizing w t w' t' with
  | nil => exact h
  | cons e steps ih =>
    obtain ⟨name, step⟩ := e
    have hrest : ∀ e ∈ steps, e.1 = x ∨ e.1 = y := fun e he => hsteps e (List.mem_cons_of_mem _ he)
    have hlater : ∀ w t w' t' (step : Step), (y, step) ∈ steps → R w t w' t' →
        R ((step.on y).after w) (step.amend t) w' t' :=
      fun w t w' t' step he => hforeign w t w' t' step (List.mem_cons_of_mem _ he)
    -- a step on the other configuration happens in the first workspace only
    rcases hsteps (name, step) List.mem_cons_self with hname | hname
    · cases hname
      rw [List.filter_cons_of_pos (by simp)]
      exact ih hlater hrest _ _ (hown w t w' t' step h)
    · cases hname
      rw [List.filter_cons_of_neg (by simpa using hne)]
      exact ih hlater hrest _ _ (hforeign w t w' t' step List.mem_cons_self h)

theorem Apart.run (h : Apart w w x y c d) (hne : y ≠ x) {steps : List (String × Step)}
    (hsteps : ∀ e ∈ steps, e.1 = x ∨ e.1 = y) (k : Key) :
    (read x k).outcome (w.runAll steps) =
      (read x k).outcome (w.runAll (steps.filter fun e => e.1 = x)) := by
  let R : Workspace → Table → Workspace → Table → Prop := fun w _ w' _ => ∃ c d, Apart w w' x y c d
  have hown : ∀ w t w' t' (step : Step), R w t w' t' →
      R ((step.on x).after w) (step.amend t) ((step.on x).after w') (step.amend t') := by
    intro w _ w' _ step ⟨c, d, h⟩
    exact ⟨_, _, h.own hne step⟩
  have hforeign : ∀ w t w' t' (step : Step), (y, step) ∈ steps → R w t w' t' →
      R ((step.on y).after w) (step.amend t) w' t' := by
    intro w _ w' _ step _ ⟨c, d, h⟩
    exact ⟨_, _, h.foreign hne step⟩
  have hstart : R w [] w [] := ⟨c, d, h⟩
  obtain ⟨c, d, h⟩ := runAll_own hne hown hforeign hsteps [] [] hstart
  exact h.outcome k

theorem Alike.run (h : Alike w₀ w w' x y paths k c c' d t t') (hne : y ≠ x)
    {steps : List (String × Step)} (hsteps : ∀ e ∈ steps, e.1 = x ∨ e.1 = y)
    (htouch : ∀ step, (y, step) ∈ steps → ¬ step.Touches k) :
    ∃ c c' d, Alike w₀ (w.runAll steps) (w'.runAll (steps.filter fun e => e.1 = x)) x y paths k c c' d
      (amended steps t) (amended (steps.filter fun e => e.1 = x) t') := by
  refine runAll_own (R := fun w t w' t' => ∃ c c' d, Alike w₀ w w' x y paths k c c' d t t') hne ?_ ?_
    hsteps t t' ⟨c, c', d, h⟩
  · intro w t w' t' step ⟨c, c', d, h⟩
    exact ⟨_, _, _, h.own hne step⟩
  · intro w t w' t' step he ⟨c, c', d, h⟩
    exact ⟨_, _, _, h.foreign hne (htouch step he)⟩

end Workspace

/-! ## A configuration and its copy -/

section

variable {w : Workspace} {name target : String} {c : Config} {paths : List String} {t : Table}
  {k : Key} {given : Option Nat}

theorem lookup_copy_ne (h : List.lookup name w.configs = some c) (hne : target ≠ name)
    (given : Option Nat) (locked : Datum) :
    List.lookup name ((copy name target given locked).after w).configs = some c := by
  rw [after_copy h]
  exact (lookup_withConfig_ne _ _ hne.symm).trans h

theorem apart_source (h : List.lookup name w.configs = some c)
    (hplace : ∀ place, c.overrides = some place → given.or c.overrides ≠ some place)
    (hne : target ≠ name) (locked : Datum) :
    let copied := (copy name target given locked).after w
    Apart copied copied name target c (c.copyOf given locked) := by
  intro copied
  refine ⟨.refl copied, lookup_copy_ne h hne .., lookup_copy_ne h hne .., fun _ _ => rfl,
    lookup_copy h .., fun place hd hc => ?_⟩
  exact hplace place hc hd

theorem apart_copy (h : List.lookup name w.configs = some c)
    (hplace : ∀ place, c.overrides = some place → given.or c.overrides ≠ some place)
    (hne : target ≠ name) (locked : Datum) :
    let copied := (copy name target given locked).after w
    Apart copied copied target name (c.copyOf given locked) c := by
  intro copied
  exact ⟨.refl copied, lookup_copy h .., lookup_copy h .., fun _ _ => rfl,
    lookup_copy_ne h hne .., hplace⟩

/-- A configuration keeps nothing wrong of a setting, and a copy of it has the same overrides, all of
settings. -/
structure Workspace.Shares (w : Workspace) (name : String) (c : Config) (given : Option Nat)
    (paths : List String) (t : Table) (k : Key) : Prop extends Has w name c t where
  same : given.or c.overrides = c.overrides
  settings : OnSettings t
  paths : c.paths = some paths
  current : c.CurrentAt (w.around c) k

theorem Workspace.Shares.has_source (h : w.Shares name c given paths t k) (hne : target ≠ name)
    (locked : Datum) : Has ((copy name target given locked).after w) name c t where
  config := lookup_copy_ne h.config hne given locked
  table := by
    rw [tables_copy h.config]
    exact h.table

theorem Workspace.Shares.has_copy (h : w.Shares name c given paths t k) (target : String)
    (locked : Datum) :
    Has ((copy name target given locked).after w) target (c.copyOf given locked) t where
  config := lookup_copy h.config target given locked
  table := by
    obtain ⟨place, ho, ht⟩ := h.table
    rw [tables_copy h.config]
    exact ⟨place, h.same.trans ho, ht⟩

theorem Workspace.Shares.alike_source (h : w.Shares name c given paths t k) (hne : target ≠ name)
    (locked : Datum) :
    let copied := (copy name target given locked).after w
    Alike w copied copied name target paths k c c (c.copyOf given locked) t t := by
  intro copied
  have hsource := h.has_source hne locked
  have hfiles := sameFiles_copy h.config target given locked
  have haround : copied.around c = w.around c := by
    apply hfiles.around
    rw [hsource.overrides?, h.overrides?]
  have hnow : c.CurrentAt (copied.around c) k := haround ▸ h.current
  exact ⟨⟨hfiles, hfiles, hsource, hsource, lookup_copy h.config target given locked, h.same,
    h.settings, h.settings, h.paths, hnow, hnow, ⟨rfl, rfl, rfl⟩, rfl⟩, rfl⟩

theorem Workspace.Shares.alike_copy (h : w.Shares name c given paths t k) (hne : target ≠ name)
    (locked : Datum) :
    let copied := (copy name target given locked).after w
    Alike w copied copied target name paths k (c.copyOf given locked) (c.copyOf given locked) c t t := by
  intro copied
  have hcopy := h.has_copy target locked
  have hfiles := sameFiles_copy h.config target given locked
  have hnow : (c.copyOf given locked).CurrentAt (copied.around (c.copyOf given locked)) k :=
    Config.copyOf_currentAt (h.current.loaded.congr (hfiles.lay c (c.copyOf given locked)))
      h.current.paths given locked
  exact ⟨⟨hfiles, hfiles, hcopy, hcopy, lookup_copy_ne h.config hne given locked, h.same.symm,
    h.settings, h.settings, h.paths, hnow, hnow, ⟨rfl, rfl, rfl⟩, rfl⟩, rfl⟩

/-- An override of a shared setting that was not read before is seen by the copy, as if it were its
own. -/
theorem Workspace.Shares.seen (h : w.Shares name c given paths t k) (hne : target ≠ name)
    (hunread : List.lookup k c.values = none) (locked d : Datum) :
    (read target k).outcome
        ((override name k.name d).after ((copy name target given locked).after w)) =
      w.afresh paths locked (t.put k.name d) k := by
  have hsource := h.has_source hne locked
  have hcopy := h.has_copy target locked
  have hstep := stepped_on hsource.config (.override k.name d)
  rw [Step.on] at hstep
  have hfiles := (sameFiles_copy h.config target given locked).trans hstep.toSameFiles
  have hcurrent := Config.copyOf_currentAt (k := k)
    (h.current.loaded.congr (hfiles.lay c (c.copyOf given locked))) h.current.paths given locked
  have hnow : overrides? ((override name k.name d).after ((copy name target given locked).after w))
      (c.copyOf given locked) = some (t.put k.name d) := by
    obtain ⟨place, ho, ht⟩ := hsource.table
    rw [overrides?, Config.copyOf, h.same, ho, Option.map_some, hstep.table ho ht, Option.getD_some,
      Step.amend_override]
  rw [outcome_read ((hstep.others target hne).trans hcopy.config),
    hcurrent.reading_fst (c.copyOf_mergesKept given locked _), ← hfiles.afresh,
    ← afresh_eq (c := c.copyOf given locked) h.paths rfl hnow]
  simp only [Config.answer, Config.copyOf, hunread, Option.elim_none]

end

/-- Steps on a configuration or on its copy are not seen by the other of the two, if these have their
overrides in different places. If they share them, this is so of the settings that the steps do not
touch, as long as the overrides can be merged; what touches a setting that was not read is seen. -/
theorem read_beside_copy {w : Workspace} {name target : String} {c : Config}
    (hc : List.lookup name w.configs = some c) (hne : target ≠ name) (given : Option Nat)
    (locked : Datum) {steps : List (String × Step)} (hsteps : ∀ e ∈ steps, e.1 = name ∨ e.1 = target)
    {x y : String} (hxy : x = name ∧ y = target ∨ x = target ∧ y = name) (k : Key) :
    let copied := (copy name target given locked).after w
    let own := steps.filter fun e => e.1 = x
    ((∀ place, c.overrides = some place → given.or c.overrides ≠ some place) →
      (read x k).outcome (copied.runAll steps) = (read x k).outcome (copied.runAll own)) ∧
    ∀ paths t, w.Shares name c given paths t k →
      ((∀ step, (y, step) ∈ steps → ¬ step.Touches k) →
        (∀ f, ¬ w.Unmergeable paths (amended steps t) f) →
        (∀ f, ¬ w.Unmergeable paths (amended own t) f) →
        (read x k).outcome (copied.runAll steps) = (read x k).outcome (copied.runAll own)) ∧
      ∀ fresh d, List.lookup k c.values = none →
        (read target k).outcome (copied.runAll [(name, .override k.name d)]) =
          (read fresh k).outcome ((createWith fresh paths (t.put k.name d) locked).after w) := by
  intro copied own
  have hsteps' : ∀ e ∈ steps, e.1 = target ∨ e.1 = name := fun e he => (hsteps e he).symm
  refine ⟨fun hplace => ?_, fun paths t hshares => ⟨fun htouch hmerges hmerges' => ?_, ?_⟩⟩
  · rcases hxy with ⟨rfl, rfl⟩ | ⟨rfl, rfl⟩
    · exact (apart_source hc hplace hne locked).run hne hsteps k
    · exact (apart_copy hc hplace hne locked).run hne.symm hsteps' k
  · rcases hxy with ⟨rfl, rfl⟩ | ⟨rfl, rfl⟩
    · obtain ⟨_, _, _, h⟩ := (hshares.alike_source hne locked).run hne hsteps htouch
      exact h.outcome hmerges hmerges'
    · obtain ⟨_, _, _, h⟩ := (hshares.alike_copy hne locked).run hne.symm hsteps' htouch
      exact h.outcome hmerges hmerges'
  · intro fresh d hunread
    rw [outcome_createdWith]
    exact hshares.seen hne hunread locked d

/-- The overrides of a copy are those of its source when none are given, and as well when those of the
source are. -/
theorem read_beside_copy_shared :
    let w := (create "c" [] (some 0) (.bool false)).after
      { Workspace.ofFiles (.ample 0) [] with tables := [[("quiet", .bool false)]] }
    let steps := [("c", Step.override "debug_all" (.bool true)), ("d", .read .quiet)]
    ∀ given ∈ [none, some 0],
      let copied := (copy "c" "d" given (.bool false)).after w
      (read "d" .quiet).outcome (copied.runAll steps) =
        (read "d" .quiet).outcome (copied.runAll [("d", .read .quiet)]) ∧
      (read "d" .quiet).outcome (copied.runAll [("c", .override "quiet" (.bool true))]) =
        .ok (.bool true) := by
  intro w steps given hgiven copied
  have hinitial : OnSettings [("quiet", .bool false)] := onSettings_single .quiet (.bool false)
  have hc : List.lookup "c" w.configs = some (.made [] 0 (.bool false)) := rfl
  have hhas : w.Has "c" (.made [] 0 (.bool false)) [("quiet", .bool false)] := ⟨hc, 0, rfl, rfl⟩
  have hshares : w.Shares "c" (.made [] 0 (.bool false)) given [] [("quiet", .bool false)] .quiet := by
    refine ⟨hhas, ?_, hinitial, rfl, (Config.made_coherent ..).current .quiet⟩
    simp only [List.mem_cons, List.not_mem_nil, or_false] at hgiven
    rcases hgiven with rfl | rfl <;> rfl
  have hsteps : ∀ e ∈ steps, e.1 = "c" ∨ e.1 = "d" := by simp [steps]
  have htouch : ∀ step, ("c", step) ∈ steps → ¬ step.Touches .quiet := by
    intro step hstep htouch
    simp only [steps, List.mem_cons, Prod.mk.injEq, List.not_mem_nil, or_false] at hstep
    rcases hstep with ⟨-, rfl⟩ | ⟨h, -⟩
    · exact absurd (Datum.text.inj htouch) (by decide)
    · exact absurd h (by decide)
  have hmerges : ∀ t f, ¬ w.Unmergeable [] t f := fun _ _ => not_unmergeable rfl
  obtain ⟨hunseen, hseen⟩ := (read_beside_copy hc (by decide) given (.bool false) hsteps
    (.inr ⟨rfl, rfl⟩) .quiet).2 _ _ hshares
  refine ⟨hunseen htouch (hmerges _) (hmerges _), (hseen "e" (.bool true) rfl).trans ?_⟩
  rw [outcome_createdWith]
  rfl

end DateSpan.Settings
