import DateSpan.Proofs.Settings.Keeping

/-! Readings and changes of overrides, one after another. A step on a configuration changes that
configuration and its table of overrides, and nothing else that another reading could see. -/

namespace DateSpan

/-! ## Names that data give -/

namespace Datum

variable {room : Room} {d : Datum}

/-- The form of a datum can be written. -/
def Quotable (room : Room) (d : Datum) : Prop :=
  (d.isNested → room.shows d) ∧ d.isShowable

/-- A message with a place for one value can quote the datum. For a tuple it takes that of its one item. -/
def QuotableAlone (room : Room) (d : Datum) : Prop :=
  d.tupleItems?.elim (d.Quotable room) fun items => ∃ item, items = [item] ∧ item.Quotable room

theorem exists_quoted : (∃ shown, d.quoted room = .ok shown) ↔ d.Quotable room := by
  unfold quoted Quotable
  cases d.isNested <;> cases room.shows d <;> cases d.isShowable <;> simp

/-- What cannot be quoted is nested too deep, or holds a number of too many digits. -/
theorem quoted_error_class {f : Fault} (h : d.quoted room = .error f) :
    f.classOf = .depth ∨ f.classOf = .value := by
  unfold quoted at h
  split at h
  · cases h
    exact .inl rfl
  · split at h
    · cases h
    · cases h
      exact .inr rfl

theorem exists_quotedAlone :
    (∃ shown, d.quotedAlone room = .ok shown) ↔ d.QuotableAlone room := by
  unfold quotedAlone QuotableAlone
  cases d.tupleItems? with
  | none => exact exists_quoted
  | some items =>
    match items with
    | [] => simp
    | [item] => simpa using exists_quoted
    | item :: other :: rest =>
      refine iff_of_false ?_ (by simp)
      rintro ⟨shown, hshown⟩
      dsimp only at hshown
      cases hitem : item.quoted room with
      | error f =>
        rw [hitem] at hshown
        cases hshown
      | ok itemShown =>
        rw [hitem] at hshown
        cases hshown

theorem quotedAlone_error_class {f : Fault} (h : d.quotedAlone room = .error f) :
    f.classOf ≠ .attribute := by
  have hquoted : ∀ {item : Datum}, item.quoted room = .error f → f.classOf ≠ .attribute := by
    intro item hitem hclass
    rcases quoted_error_class hitem with hdepth | hvalue
    · cases hdepth.symm.trans hclass
    · cases hvalue.symm.trans hclass
  unfold quotedAlone at h
  split at h
  · exact hquoted h
  · exact hquoted h
  · cases h
    decide
  · rename_i item rest _ _
    cases hitem : item.quoted room with
    | error g =>
      rw [hitem] at h
      cases h
      exact hquoted hitem
    | ok shown =>
      rw [hitem] at h
      cases h
      decide

end Datum

namespace Settings

open Session Workspace

namespace Key

variable {room : Room} {d : Datum} {k : Key}

theorem ofDatum_named (h : named? d = some k) : ofDatum room d = .ok k := by
  simp only [ofDatum, h]

/-- A datum that is no setting's name is refused, and reported as such if it can be a name and be
quoted. -/
theorem ofDatum_unnamed (room : Room) (h : named? d = none) :
    ∃ f, ofDatum room d = .error f ∧
      (f.classOf = .attribute ↔ d.isHashable ∧ d.QuotableAlone room) := by
  rw [← Datum.exists_quotedAlone, ofDatum, h]
  by_cases hhash : d.isHashable
  · rw [if_neg (not_not_intro hhash)]
    cases hquote : d.quotedAlone room with
    | error f =>
      refine ⟨f, rfl, iff_of_false (Datum.quotedAlone_error_class hquote) ?_⟩
      rintro ⟨-, shown, hshown⟩
      cases hshown
    | ok shown => exact ⟨.unknownSetting shown, rfl, iff_of_true rfl ⟨hhash, shown, rfl⟩⟩
  · rw [if_pos hhash]
    refine ⟨.argumentMismatch, rfl, iff_of_false (by decide) ?_⟩
    rintro ⟨hhash', -⟩
    exact hhash hhash'

end Key

/-! ## Steps -/

inductive Step
  | read (k : Key)
  | override (key d : Datum)
  | remove (key : Datum)

namespace Step

def on (name : String) : Step → Session Unit
  | read k => do
    let _ ← Settings.read name k
    return ()
  | override key d => Settings.override name key d
  | remove key => removeOverride name key

/-- The overrides that are meant to be in force after a step. -/
def amend : Step → Table → Table
  | read _, t => t
  | override key d, t =>
    match Key.named? key with
    | some k => t.put k.name d
    | none => t
  | remove key, t => if key.isHashable then t.erase key else t

def alter (c : Config) (s : Surroundings) : Step → Config
  | read k => (c.reading s k).2
  | override key _ =>
    match Key.named? key, s.overrides with
    | some k, some _ => c.forget k.name
    | _, _ => c
  | remove key =>
    if key.isHashable && s.overrides.any fun t => t.has key then c.forget key else c

/-- The forms that a configuration may have after a step. -/
theorem alter_forms (c : Config) (s : Surroundings) (step : Step) :
    step.alter c s = c ∨ (∃ k, step.alter c s = (c.reading s k).2) ∨
      ∃ key, step.alter c s = c.forget key := by
  cases step with
  | read k => exact .inr (.inl ⟨k, rfl⟩)
  | override key d =>
    simp only [alter]
    split
    · exact .inr (.inr ⟨_, rfl⟩)
    · exact .inl rfl
  | remove key =>
    simp only [alter]
    split
    · exact .inr (.inr ⟨key, rfl⟩)
    · exact .inl rfl

/-- The fault of a step, if it has one. -/
def result (c : Config) (s : Surroundings) : Step → Except Fault Unit
  | read k => (c.reading s k).1.map fun _ => ()
  | override key _ => do
    let _ ← Key.ofDatum s.room key
    s.overrides.elim (.error .unknownName) fun _ => .ok ()
  | remove key =>
    s.overrides.elim (.error .unknownName) fun _ =>
      if key.isHashable then .ok () else .error .argumentMismatch

end Step

def Workspace.runOn (w : Workspace) (name : String) : List Step → Workspace
  | [] => w
  | step :: steps => ((step.on name).after w).runOn name steps

/-- The workspace after steps, each on the configuration that it names. -/
def Workspace.runAll (w : Workspace) : List (String × Step) → Workspace
  | [] => w
  | (name, step) :: steps => ((step.on name).after w).runAll steps

/-- One configuration took a new form and its overrides were amended; nothing else is different. -/
structure Workspace.Stepped (w w' : Workspace) (name : String) (c c' : Config)
    (amend : Table → Table) : Prop extends SameFiles w w' where
  tables : w'.tables = c.overrides.elim w.tables fun place => w.tables.modify place amend
  config : List.lookup name w'.configs = some c'
  others : ∀ other, other ≠ name → List.lookup other w'.configs = List.lookup other w.configs

namespace Workspace

variable {w w' : Workspace} {name : String} {c c' : Config}

theorem Became.stepped (h : Became w w' name c') : Stepped w w' name c c' fun t => t where
  toSameFiles := h.toSameFiles
  tables := by
    rw [h.tables]
    cases c.overrides with
    | none => rfl
    | some place => exact (List.modify_id place w.tables).symm
  config := h.config
  others := h.others

/-- The table of a configuration is amended, and the configuration put back. -/
theorem stepped_withConfig {place : Nat} (ho : c.overrides = some place) (amend : Table → Table) :
    Stepped w (withConfig { w with tables := w.tables.set place (amend (w.tables[place]?.getD [])) }
      name c') name c c' amend where
  toSameFiles := ⟨rfl, rfl, rfl, rfl⟩
  tables := by
    rw [ho]
    exact (List.modify_eq_set amend place w.tables).symm
  config := lookup_withConfig ..
  others _ hne := lookup_withConfig_ne _ c' hne

theorem Stepped.unchanged (hc : List.lookup name w.configs = some c) {amend : Table → Table}
    (h : ∀ t, w.overrides? c = some t → amend t = t) : Stepped w w name c c amend where
  toSameFiles := .refl w
  tables := by
    cases ho : c.overrides with
    | none => rfl
    | some place =>
      apply List.ext_getElem?
      intro i
      rw [Option.elim_some, List.getElem?_modify]
      cases hi : w.tables[i]? with
      | none => rfl
      | some t =>
        by_cases hplace : place = i
        · subst hplace
          have ht : w.overrides? c = some t := by
            rw [overrides?, ho, Option.map_some, hi, Option.getD_some]
          simp only [Option.map_eq_map, Option.map_some, if_true, h t ht]
        · simp only [Option.map_eq_map, Option.map_some, if_neg hplace]
  config := hc
  others _ _ := rfl

end Workspace

theorem exec_override {w : Workspace} {name : String} {c : Config}
    (h : List.lookup name w.configs = some c) (key d : Datum) :
    ∃ w', exec (override name key d) w = ((Step.override key d).result c (w.around c), w') ∧
      Stepped w w' name c ((Step.override key d).alter c (w.around c)) (Step.override key d).amend := by
  simp only [override, Step.result, Step.alter, exec_bind, exec_get, exec_getConfig h, exec_liftM,
    around]
  cases hkey : Key.named? key with
  | none =>
    obtain ⟨f, hf, -⟩ := Key.ofDatum_unnamed w.room hkey
    rw [hf]
    refine ⟨w, rfl, .unchanged h fun t _ => ?_⟩
    simp only [Step.amend, hkey]
  | some k =>
    rw [Key.ofDatum_named hkey]
    have hamend : (Step.override key d).amend = fun t => t.put k.name d := by
      funext t
      simp only [Step.amend, hkey]
    simp only [exec_overridesOf]
    cases ho : c.overrides with
    | none =>
      have hlost : w.overrides? c = none := congrArg (Option.map _) ho
      rw [hlost]
      refine ⟨w, rfl, .unchanged h fun t ht => ?_⟩
      rw [hlost] at ht
      cases ht
    | some place =>
      have hkept : w.overrides? c = some (w.tables[place]?.getD []) := congrArg (Option.map _) ho
      rw [hkept, hamend]
      simp only [Option.elim_some, exec_setOverrides ho, exec_putConfig]
      exact ⟨_, rfl, stepped_withConfig ho fun t => t.put k.name d⟩

theorem exec_removeOverride {w : Workspace} {name : String} {c : Config}
    (h : List.lookup name w.configs = some c) (key : Datum) :
    ∃ w', exec (removeOverride name key) w = ((Step.remove key).result c (w.around c), w') ∧
      Stepped w w' name c ((Step.remove key).alter c (w.around c)) (Step.remove key).amend := by
  simp only [removeOverride, Step.result, exec_bind, exec_getConfig h, exec_overridesOf, around]
  cases ho : c.overrides with
  | none =>
    have hlost : w.overrides? c = none := congrArg (Option.map _) ho
    rw [hlost]
    have halter : (Step.remove key).alter c
        ⟨w.room, fun paths => w.lays paths [] [], w.environment, none⟩ = c := by
      simp only [Step.alter, Option.any_none, Bool.and_false, Bool.false_eq_true, if_false]
    rw [halter]
    refine ⟨w, rfl, .unchanged h fun t ht => ?_⟩
    rw [hlost] at ht
    cases ht
  | some place =>
    have hkept : w.overrides? c = some (w.tables[place]?.getD []) := congrArg (Option.map _) ho
    rw [hkept]
    simp only [Option.elim_some]
    cases hhash : key.isHashable with
    | false =>
      have hamend : (Step.remove key).amend = id := by
        funext t
        simp only [Step.amend, hhash, Bool.false_eq_true, if_false, id]
      simp only [Step.alter, hhash, Bool.false_eq_true, not_false_eq_true, if_true, Bool.false_and,
        if_false, hamend]
      exact ⟨w, rfl, .unchanged h fun _ _ => rfl⟩
    | true =>
      have hamend : (Step.remove key).amend = fun t => t.erase key := by
        funext t
        simp only [Step.amend, hhash, if_true]
      simp only [Step.alter, hhash, not_true_eq_false, if_false, if_true, Bool.true_and,
        Option.any_some, hamend]
      by_cases hhas : Table.has (w.tables[place]?.getD []) key
      · simp only [hhas, if_true, exec_bind, exec_setOverrides ho, exec_putConfig]
        exact ⟨_, rfl, stepped_withConfig ho fun t => t.erase key⟩
      · simp only [hhas, Bool.false_eq_true, if_false]
        refine ⟨w, rfl, .unchanged h fun t ht => ?_⟩
        rw [hkept] at ht
        cases ht
        exact Table.erase_of_not_has (Bool.eq_false_iff.mpr hhas)

theorem exec_on {w : Workspace} {name : String} {c : Config}
    (h : List.lookup name w.configs = some c) (step : Step) :
    ∃ w', exec (step.on name) w = (step.result c (w.around c), w') ∧
      Stepped w w' name c (step.alter c (w.around c)) step.amend := by
  cases step with
  | read k =>
    obtain ⟨w', hread, hbecame⟩ := exec_read h k
    refine ⟨w', ?_, hbecame.stepped⟩
    simp only [Step.on, Step.result, exec_bind, hread]
    cases (c.reading (w.around c) k).1 <;> rfl
  | override key d => exact exec_override h key d
  | remove key => exact exec_removeOverride h key

/-! ## What a step leaves -/

/-- Surroundings with the overrides as a step leaves them. -/
def Surroundings.amended (s : Surroundings) (step : Step) : Surroundings :=
  { s with overrides := s.overrides.map step.amend }

namespace Workspace

variable {w w' : Workspace} {name : String} {c c' d d' : Config} {t : Table}

theorem around_log (w : Workspace) (c : Config) :
    Workspace.around { w with log := [] } c = w.around c := by
  have hfiles : SameFiles w { w with log := [] } := ⟨rfl, rfl, rfl, rfl⟩
  exact hfiles.around rfl

theorem outcome_read (h : List.lookup name w.configs = some c) (k : Key) :
    (read name k).outcome w = (c.reading (w.around c) k).1 := by
  obtain ⟨w', hread, -⟩ := exec_read (w := { w with log := [] }) h k
  rw [outcome_eq, hread, around_log]

theorem outcome_on (h : List.lookup name w.configs = some c) (step : Step) :
    (step.on name).outcome w = step.result c (w.around c) := by
  obtain ⟨w', hstep, -⟩ := exec_on (w := { w with log := [] }) h step
  rw [outcome_eq, hstep, around_log]

theorem stepped_on (h : List.lookup name w.configs = some c) (step : Step) :
    Stepped w ((step.on name).after w) name c (step.alter c (w.around c)) step.amend := by
  obtain ⟨w', hstep, hw⟩ := exec_on (w := { w with log := [] }) h step
  rw [around_log] at hw
  rw [after_eq, hstep]
  exact ⟨⟨hw.room, hw.files, hw.environment, hw.loads⟩, hw.tables, hw.config, hw.others⟩

theorem Stepped.table {amend : Table → Table} {place : Nat} (h : Stepped w w' name c c' amend)
    (ho : c.overrides = some place) (ht : w.tables[place]? = some t) :
    w'.tables[place]? = some (amend t) := by
  rw [h.tables, ho, Option.elim_some, List.getElem?_modify_eq, ht]
  rfl

theorem Stepped.table_apart {amend : Table → Table} {place : Nat} (h : Stepped w w' name c c' amend)
    (ho : c.overrides ≠ some place) : w'.tables[place]? = w.tables[place]? := by
  rw [h.tables]
  cases hc : c.overrides with
  | none => rfl
  | some other =>
    have hne : other ≠ place := fun heq => ho (hc.trans (congrArg some heq))
    rw [Option.elim_some, List.getElem?_modify_ne _ _ hne]

/-- A configuration of the same place sees the amended overrides. -/
theorem Stepped.around_shared {step : Step} (h : Stepped w w' name c c' step.amend)
    (hd : d.overrides = c.overrides) (hd' : d'.overrides = c.overrides)
    (ht : ∃ place, c.overrides = some place ∧ w.tables[place]? = some t) :
    w'.around d' = (w.around d).amended step := by
  obtain ⟨place, ho, ht⟩ := ht
  have hlays := funext fun paths => h.toSameFiles.lays paths [] []
  have hnow : w'.overrides? d' = some (step.amend t) := by
    rw [overrides?, hd', ho, Option.map_some, h.table ho ht, Option.getD_some]
  have hbefore : w.overrides? d = some t := by
    rw [overrides?, hd, ho, Option.map_some, ht, Option.getD_some]
  rw [Workspace.around, Surroundings.amended, Workspace.around, hlays, h.room, h.environment, hnow,
    hbefore]
  rfl

end Workspace

end Settings

end DateSpan
