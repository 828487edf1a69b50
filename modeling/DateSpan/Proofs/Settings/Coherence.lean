import DateSpan.Proofs.Settings.Steps

/-! No reading is out of date. After any steps on a configuration, a setting reads as in a configuration
made just now with the overrides that are in force. Only if these cannot be merged any more does a
setting that was read before keep its value, where a new configuration has none to give. -/

namespace DateSpan.Settings

open Session

/-! ## Overrides of settings -/

/-- A table that holds overrides of settings only. -/
def OnSettings (t : Table) : Prop :=
  ∀ name, t.has name → ∃ k : Key, name = k.name

theorem onSettings_nil : OnSettings [] := by
  intro name hname
  cases hname

theorem onSettings_single (k : Key) (d : Datum) : OnSettings [(k.name, d)] := by
  intro name hname
  rw [Table.has, Table.get?] at hname
  split at hname
  · rename_i h
    exact ⟨k, Datum.text_same_iff.mp h⟩
  · cases hname

theorem Key.ofDatum_name (room : Room) (k : Key) : ofDatum room k.name = .ok k :=
  ofDatum_named k.named?_name

theorem Key.eq_of_named? {d : Datum} {k : Key} (h : named? d = some k) : d = k.name := by
  cases d with
  | text s =>
    have hfound : ofName? s = some k := h
    unfold ofName? at hfound
    have hname := List.find?_some hfound
    rw [eq_of_beq hname]
  | _ => cases h

namespace Step

variable {c c' : Config} {s s' : Surroundings} {t : Table} {j k : Key} {step : Step}

/-- The step gives a setting an override, or takes its override back. -/
def Touches (k : Key) : Step → Prop
  | read _ => False
  | override key _ | remove key => key = k.name

theorem amend_override (k : Key) (d : Datum) (t : Table) :
    (override k.name d).amend t = t.put k.name d := by
  simp only [amend, k.named?_name]

theorem amend_remove (k : Key) (t : Table) : (remove k.name).amend t = t.erase k.name := by
  simp only [amend, Datum.isHashable, if_true]

theorem amend_onSettings (step : Step) (h : OnSettings t) : OnSettings (step.amend t) := by
  intro name hname
  cases step with
  | read j => exact h name hname
  | override key d =>
    simp only [amend] at hname
    split at hname
    · rename_i j hj
      by_cases hn : Datum.Same j.name name
      · exact ⟨j, Datum.text_same_iff.mp hn⟩
      · rw [Table.has, Table.get?_put, if_neg hn] at hname
        exact h name hname
    · exact h name hname
  | remove key =>
    simp only [amend] at hname
    split at hname
    · exact h name (Table.has_of_has_erase hname)
    · exact h name hname

theorem amend_under (step : Step) (h : ¬ step.Touches k) (t : Table) :
    (step.amend t).under k.name = t.under k.name := by
  cases step with
  | read j => rfl
  | override key d =>
    simp only [amend]
    split
    · rename_i j hj
      refine t.under_put_ne (fun hsame => h ?_) d
      rw [Touches, Key.eq_of_named? hj]
      exact Datum.text_same_iff.mp hsame
    · rfl
  | remove key =>
    simp only [amend]
    split
    · exact t.under_erase_ne fun hsame => h (Datum.text_same_iff.mp hsame)
    · rfl

/-- What fails is a reading, or it does nothing at all. -/
theorem fails_cases {f : Fault} (hs : s.overrides = some t) (h : step.result c s = .error f) :
    (∃ j, step = .read j ∧ (c.reading s j).1 = .error f) ∨
      (step.alter c s = c ∧ ∀ u, step.amend u = u) := by
  cases step with
  | read j =>
    left
    refine ⟨j, rfl, ?_⟩
    simp only [result] at h
    cases hread : (c.reading s j).1 with
    | ok d =>
      rw [hread] at h
      cases h
    | error g =>
      rw [hread] at h
      cases h
      rfl
  | override key d =>
    cases hkey : Key.named? key with
    | none =>
      right
      simp only [alter, amend, hkey, implies_true, and_self]
    | some k =>
      simp only [result, Key.ofDatum_named hkey, hs] at h
      cases h
  | remove key =>
    simp only [result, hs, Option.elim_some] at h
    split at h
    · cases h
    · rename_i hhash
      right
      simp only [alter, amend, hhash, Bool.false_and, Bool.false_eq_true, if_false, implies_true,
        and_self]

theorem amend_of_fails {f : Fault} (hs : s.overrides = some t) (h : step.result c s = .error f)
    (u : Table) : step.amend u = u := by
  rcases fails_cases hs h with ⟨j, rfl, -⟩ | ⟨-, hamend⟩
  · rfl
  · exact hamend u

/-- All that a step does to a configuration whose overrides are of settings. -/
theorem alter_cases (c : Config) (hs : s.overrides = some t) (ht : OnSettings t) (step : Step) :
    (∃ j, step = .read j ∧ step.alter c s = (c.reading s j).2) ∨
    (∃ j, step.Touches j ∧ step.alter c s = c.forget j.name) ∨
    (step.alter c s = c ∧ step.amend t = t) := by
  cases step with
  | read j => exact .inl ⟨j, rfl, rfl⟩
  | override key d =>
    cases hkey : Key.named? key with
    | some j =>
      refine .inr (.inl ⟨j, Key.eq_of_named? hkey, ?_⟩)
      simp only [alter, hkey, hs]
    | none =>
      refine .inr (.inr ⟨?_, ?_⟩)
      · simp only [alter, hkey]
      · simp only [amend, hkey]
  | remove key =>
    simp only [alter, amend, hs, Option.any_some]
    cases key.isHashable with
    | false => exact .inr (.inr ⟨rfl, rfl⟩)
    | true =>
      cases hhas : t.has key with
      | true =>
        obtain ⟨j, hj⟩ := ht key hhas
        refine .inr (.inl ⟨j, hj, ?_⟩)
        rw [hj]
        rfl
      | false => exact .inr (.inr ⟨rfl, Table.erase_of_not_has hhas⟩)

theorem touches_unique (h : step.Touches j) (h' : step.Touches k) : j = k := by
  cases step with
  | read i => exact h.elim
  | override key d =>
    have hname : Datum.text j.name = .text k.name := h.symm.trans h'
    exact Key.name_injective (Datum.text.inj hname)
  | remove key =>
    have hname : Datum.text j.name = .text k.name := h.symm.trans h'
    exact Key.name_injective (Datum.text.inj hname)

end Step

theorem Surroundings.agreeAt_amended (s : Surroundings) {step : Step} {k : Key}
    (h : ¬ step.Touches k) : s.AgreeAt (s.amended step) k.name where
  room := rfl
  lay := rfl
  environment := rfl
  overrides := by
    unfold amended
    cases s.overrides with
    | none => rfl
    | some t => exact congrArg some (step.amend_under h t)

theorem Surroundings.amended_of_amend {s : Surroundings} {t : Table} {step : Step}
    (hs : s.overrides = some t) (h : step.amend t = t) : s.amended step = s := by
  unfold amended
  rw [hs, Option.map_some, h, ← hs]

theorem Surroundings.amended_read (s : Surroundings) (j : Key) : s.amended (.read j) = s := by
  obtain ⟨room, lay, environment, overrides⟩ := s
  cases overrides <;> rfl

namespace Config

variable {c : Config} {s : Surroundings} {t : Table} {k : Key}

theorem alter_sameParts (c : Config) (hs : s.overrides = some t) (ht : OnSettings t) (step : Step) :
    c.SameParts (step.alter c s) := by
  rcases Step.alter_cases c hs ht step with ⟨j, -, halter⟩ | ⟨j, -, halter⟩ | ⟨halter, -⟩
  · rw [halter]
    exact c.reading_sameParts s j
  · rw [halter]
    exact c.forget_sameParts j
  · rw [halter]
    exact ⟨rfl, rfl, rfl⟩

/-- What is kept of files and overrides stays right. -/
theorem CurrentAt.alter (h : c.CurrentAt s k) (hs : s.overrides = some t) (ht : OnSettings t)
    (step : Step) : (step.alter c s).CurrentAt (s.amended step) k := by
  rcases Step.alter_cases c hs ht step with ⟨j, hj, halter⟩ | ⟨j, hj, halter⟩ | ⟨halter, hamend⟩
  · rw [halter, hj, s.amended_read]
    exact h.reading j
  · have hlay : (s.amended step).lay = s.lay := rfl
    rw [halter]
    exact h.forget hlay j
  · rw [halter, Surroundings.amended_of_amend hs hamend]
    exact h

theorem CurrentAt.mergesKept_alter (h : c.CurrentAt s k) (hkept : c.MergesKept s)
    (hs : s.overrides = some t) (ht : OnSettings t) (step : Step) :
    (step.alter c s).MergesKept (s.amended step) := by
  rcases Step.alter_cases c hs ht step with ⟨j, hj, halter⟩ | ⟨j, hj, halter⟩ | ⟨halter, hamend⟩
  · rw [halter, hj, s.amended_read]
    exact h.mergesKept_reading hkept j
  · rw [halter, forget_key]
    intro hsome
    cases hsome
  · rw [halter, Surroundings.amended_of_amend hs hamend]
    exact hkept

/-- A value is kept only by a reading of the setting. -/
theorem lookup_of_alter (hs : s.overrides = some t) (ht : OnSettings t) {step : Step} {d : Datum}
    (h : List.lookup k (step.alter c s).values = some d) :
    step = .read k ∨ List.lookup k c.values = some d := by
  rcases Step.alter_cases c hs ht step with ⟨j, hj, halter⟩ | ⟨j, -, halter⟩ | ⟨halter, -⟩
  · rw [halter, lookup_reading] at h
    split at h
    · rename_i hk
      exact .inl (hk ▸ hj)
    · exact .inr h
  · rw [halter, lookup_forget] at h
    split at h
    · cases h
    · exact .inr h
  · rw [halter] at h
    exact .inr h

theorem lookup_alter_of_fails {step : Step} {f : Fault} (hs : s.overrides = some t)
    (h : step.result c s = .error f) (k : Key) :
    List.lookup k (step.alter c s).values = List.lookup k c.values := by
  rcases Step.fails_cases hs h with ⟨j, rfl, hread⟩ | ⟨halter, -⟩
  · rw [Step.alter, lookup_reading, hread]
    split
    · rename_i hk
      subst hk
      -- what is kept would have been given
      cases hvalue : List.lookup k c.values with
      | none => rfl
      | some d =>
        rw [reading_of_kept hvalue] at hread
        cases hread
    · rfl
  · rw [halter]

/-- What is held of a setting stays so under steps that do not touch it. -/
theorem CurrentAt.held_alter (h : c.CurrentAt s k) (hs : s.overrides = some t) (ht : OnSettings t)
    {step : Step} (htouch : ¬ step.Touches k) :
    (step.alter c s).held (s.amended step) k = c.held s k := by
  rcases Step.alter_cases c hs ht step with ⟨j, hj, halter⟩ | ⟨j, hj, halter⟩ | ⟨halter, hamend⟩
  · rw [halter, hj, s.amended_read]
    exact h.held_reading j
  · have hne : k ≠ j := fun hk => htouch (hk ▸ hj)
    rw [held, held, halter, lookup_forget, if_neg hne, due_sameParts (c.forget_sameParts j),
      due_congr (s.agreeAt_amended htouch)]
  · rw [halter, Surroundings.amended_of_amend hs hamend]

/-- Nothing that a configuration keeps is out of date. -/
structure Coherent (c : Config) (s : Surroundings) : Prop where
  current : ∀ k, c.CurrentAt s k
  mergesKept : c.MergesKept s
  held : ∀ k, c.held s k = c.due s k

theorem Coherent.alter (h : c.Coherent s) (hs : s.overrides = some t) (ht : OnSettings t)
    (step : Step) : (step.alter c s).Coherent (s.amended step) where
  current k := (h.current k).alter hs ht step
  mergesKept := (h.current .quiet).mergesKept_alter h.mergesKept hs ht step
  held k := by
    have hparts := c.alter_sameParts hs ht step
    by_cases htouch : step.Touches k
    · -- nothing is kept of a setting that was touched, unless the step did nothing
      rcases Step.alter_cases c hs ht step with ⟨j, hj, -⟩ | ⟨j, hj, halter⟩ | ⟨halter, hamend⟩
      · rw [hj] at htouch
        exact htouch.elim
      · rw [Config.held, halter, lookup_forget, if_pos (Step.touches_unique htouch hj)]
        rfl
      · rw [halter, Surroundings.amended_of_amend hs hamend]
        exact h.held k
    · rw [(h.current k).held_alter hs ht htouch, due_sameParts hparts,
        due_congr (s.agreeAt_amended htouch)]
      exact h.held k

/-- A reading gives what a reading afresh gives, or else what is kept where there is no room for one. -/
theorem Coherent.answer_cases (h : c.Coherent s) (k : Key) :
    c.answer s k = c.afresh s k ∨
      ∃ d f, List.lookup k c.values = some d ∧ c.answer s k = .ok d ∧ c.Refuses s f := by
  cases hvalue : List.lookup k c.values with
  | none =>
    left
    rw [answer, hvalue]
    rfl
  | some d =>
    have hanswer : c.answer s k = .ok d := by
      rw [answer, hvalue]
      rfl
    by_cases hmerges : ∃ f, c.Refuses s f
    · obtain ⟨f, hf⟩ := hmerges
      exact .inr ⟨d, f, rfl, hanswer, hf⟩
    · left
      have hheld : c.held s k = .ok d := by
        rw [Config.held, hvalue]
        rfl
      rw [hanswer, afresh_of_merges (fun f hf => hmerges ⟨f, hf⟩), ← h.held k, hheld]

end Config

/-! ## New configurations -/

def Config.made (paths : List String) (place : Nat) (locked : Datum) : Config :=
  ⟨some paths, some place, some locked, [], none, none, some none, none⟩

theorem Config.made_coherent (paths : List String) (place : Nat) (locked : Datum)
    (s : Surroundings) : (made paths place locked).Coherent s where
  current _ := by
    refine ⟨rfl, rfl, ?_, ?_⟩
    · intro _ _ _ h
      cases h
    · intro _ h
      cases h
  mergesKept := by
    intro h
    cases h
  held _ := rfl

namespace Workspace

variable {w w' : Workspace} {name : String} {paths : List String} {locked : Datum} {t : Table}
  {c c' : Config} {f : Fault}

/-- The workspace after more tables were made. -/
def withTables (w : Workspace) (more : List Table) : Workspace :=
  { w with tables := w.tables ++ more }

/-- A configuration under a name, with its overrides. -/
structure Has (w : Workspace) (name : String) (c : Config) (t : Table) : Prop where
  config : List.lookup name w.configs = some c
  table : ∃ place, c.overrides = some place ∧ w.tables[place]? = some t

theorem Has.overrides? (h : w.Has name c t) : w.overrides? c = some t := by
  obtain ⟨place, ho, ht⟩ := h.table
  rw [Workspace.overrides?, ho, Option.map_some, ht, Option.getD_some]

theorem Has.around (h : w.Has name c t) : (w.around c).overrides = some t := h.overrides?

theorem Has.around_step (h : w.Has name c t) (ht : OnSettings t) (step : Step) :
    Workspace.around ((step.on name).after w) (step.alter c (w.around c)) =
      (w.around c).amended step :=
  (stepped_on h.config step).around_shared rfl (c.alter_sameParts h.around ht step).overrides h.table

theorem Has.step (h : w.Has name c t) (ht : OnSettings t) (step : Step) :
    Has ((step.on name).after w) name (step.alter c (w.around c)) (step.amend t) where
  config := (stepped_on h.config step).config
  table := by
    obtain ⟨place, ho, hplace⟩ := h.table
    rw [(c.alter_sameParts h.around ht step).overrides]
    exact ⟨place, ho, (stepped_on h.config step).table ho hplace⟩

theorem exec_addTable (w : Workspace) (t : Table) :
    exec (addTable t) w = (.ok w.tables.length, w.withTables [t]) := rfl

theorem getElem?_withTables (w : Workspace) (t : Table) :
    (w.withTables [t]).tables[w.tables.length]? = some t :=
  List.getElem?_concat_length

/-- The place for new overrides holds those that are given. -/
theorem exec_placeOf (w : Workspace) (given : Option Nat) :
    ∃ place w', exec (placeOf given) w = (.ok place, w') ∧ SameFiles w w' ∧
      w'.tables[place]? = some (w.tableAt given) := by
  have hnew : ∃ place w', exec (addTable []) w = (.ok place, w') ∧ SameFiles w w' ∧
      w'.tables[place]? = some [] :=
    ⟨_, _, w.exec_addTable [], ⟨rfl, rfl, rfl, rfl⟩, w.getElem?_withTables []⟩
  cases given with
  | none => exact hnew
  | some place =>
    simp only [placeOf, exec_bind, exec_get]
    cases hempty : (w.tableAt (some place)).isEmpty with
    | true =>
      rw [List.isEmpty_iff.mp hempty]
      exact hnew
    | false =>
      refine ⟨place, w, rfl, .refl w, ?_⟩
      cases hplace : w.tables[place]? with
      | some t => rw [tableAt, Option.bind_some, hplace, Option.getD_some]
      | none =>
        rw [tableAt, Option.bind_some, hplace] at hempty
        cases hempty

theorem exec_create (w : Workspace) (name : String) (paths : List String) (given : Option Nat)
    (locked : Datum) :
    ∃ place w', exec (create name paths given locked) w = (.ok (), w') ∧ SameFiles w w' ∧
      Has w' name (.made paths place locked) (w.tableAt given) := by
  obtain ⟨place, w', hplace, hfiles, ht⟩ := w.exec_placeOf given
  refine ⟨place, w'.withConfig name (.made paths place locked), ?_, hfiles.trans ⟨rfl, rfl, rfl, rfl⟩,
    lookup_withConfig .., place, rfl, ht⟩
  simp only [create, exec_bind, hplace, exec_putConfig]
  rfl

theorem has_created (w : Workspace) (name : String) (paths : List String) (given : Option Nat)
    (locked : Datum) :
    SameFiles w ((create name paths given locked).after w) ∧
      ∃ place, Has ((create name paths given locked).after w) name (.made paths place locked)
        (w.tableAt given) := by
  obtain ⟨place, w', hcreate, hfiles, hhas⟩ :=
    exec_create { w with log := [] } name paths given locked
  have hlog : SameFiles w { w with log := [] } := ⟨rfl, rfl, rfl, rfl⟩
  rw [after_eq, hcreate]
  exact ⟨hlog.trans hfiles, place, hhas⟩

theorem has_createdWith (w : Workspace) (name : String) (paths : List String) (t : Table)
    (locked : Datum) :
    SameFiles w ((createWith name paths t locked).after w) ∧
      ∃ place, Has ((createWith name paths t locked).after w) name (.made paths place locked) t := by
  have hnow : ((withTables { w with log := [] } [t]).tableAt (some w.tables.length)) = t := by
    rw [tableAt, Option.bind_some]
    exact congrArg (Option.getD · []) (w.getElem?_withTables t)
  obtain ⟨place, w', hcreate, hfiles, hhas⟩ :=
    exec_create (withTables { w with log := [] } [t]) name paths (some w.tables.length) locked
  have hwith : SameFiles w (withTables { w with log := [] } [t]) := ⟨rfl, rfl, rfl, rfl⟩
  rw [hnow] at hhas
  rw [after_eq]
  simp only [createWith, exec_bind, exec_addTable, hcreate]
  exact ⟨hwith.trans hfiles, place, hhas⟩

/-- What lies around a configuration that has these overrides. -/
def beside (w : Workspace) (t : Table) : Surroundings :=
  ⟨w.room, fun paths => w.lays paths [] [], w.environment, some t⟩

/-- What a new configuration reads. -/
def afresh (w : Workspace) (paths : List String) (locked : Datum) (t : Table) (k : Key) :
    Except Fault Datum :=
  (Config.made paths 0 locked).afresh (w.beside t) k

theorem loading_made (w : Workspace) (paths : List String) (locked : Datum) (t : Table) :
    ((Config.made paths 0 locked).unread.loading (w.beside t)).1 =
      (w.lays paths [] []).map Prod.fst :=
  Config.loading_fst rfl rfl rfl

/-- The files load, but there is no room to merge them with the overrides. -/
def Unmergeable (w : Workspace) (paths : List String) (overrides : Table) (f : Fault) : Prop :=
  ∃ t files, w.lays paths [] [] = .ok (t, files) ∧ w.room.merge t overrides = .error f

/-- There is always room where there is room for all data. -/
theorem not_unmergeable {reads : Nat} (h : w.room = .ample reads) : ¬ w.Unmergeable paths t f := by
  intro ⟨files, found, _, hmerge⟩
  rw [h] at hmerge
  cases hmerge

theorem afresh_eq (hpaths : c.paths = some paths) (hlocked : c.locked = some locked)
    (ht : w.overrides? c = some t) (k : Key) :
    c.afresh (w.around c) k = w.afresh paths locked t k := by
  have hunread : c.unread = (Config.made paths 0 locked).unread := by
    rw [Config.unread, Config.unread, hpaths, hlocked]
    rfl
  rw [afresh, Config.afresh, Config.afresh, hunread, Workspace.around, beside, ht]

theorem refuses_iff (hpaths : c.paths = some paths) (hlocked : c.locked.isSome)
    (ht : w.overrides? c = some t) : c.Refuses (w.around c) f ↔ w.Unmergeable paths t f := by
  have hload : (c.unread.loading (w.around c)).1 = (w.lays paths [] []).map Prod.fst :=
    Config.loading_fst rfl hpaths hlocked
  unfold Config.Refuses Unmergeable
  rw [hload]
  constructor
  · intro ⟨files, o, hfiles, ho, hmerge⟩
    cases ht.symm.trans ho
    cases hlays : w.lays paths [] [] with
    | error g =>
      rw [hlays] at hfiles
      cases hfiles
    | ok laid =>
      rw [hlays] at hfiles
      cases hfiles
      exact ⟨laid.1, laid.2, rfl, hmerge⟩
  · intro ⟨files, found, hlays, hmerge⟩
    rw [hlays]
    exact ⟨files, t, rfl, ht, hmerge⟩

theorem SameFiles.unmergeable (h : SameFiles w w') :
    w'.Unmergeable paths t f ↔ w.Unmergeable paths t f := by
  rw [Unmergeable, Unmergeable, h.lays, h.room]

theorem SameFiles.afresh (h : SameFiles w w') (paths : List String) (locked : Datum) (t : Table)
    (k : Key) : w'.afresh paths locked t k = w.afresh paths locked t k := by
  have hlays := funext fun paths => h.lays paths [] []
  rw [Workspace.afresh, Workspace.afresh, beside, beside, hlays, h.room, h.environment]

theorem Has.afresh {place : Nat} (h : w.Has name (.made paths place locked) t) (k : Key) :
    (read name k).outcome w = w.afresh paths locked t k := by
  have hmade := Config.made_coherent paths place locked (w.around (.made paths place locked))
  rw [outcome_read h.config, (hmade.current k).reading_fst hmade.mergesKept, Config.answer,
    ← afresh_eq (c := .made paths place locked) rfl rfl h.overrides?]
  rfl

theorem outcome_created (w : Workspace) (name : String) (paths : List String) (given : Option Nat)
    (locked : Datum) (k : Key) :
    (read name k).outcome ((create name paths given locked).after w) =
      w.afresh paths locked (w.tableAt given) k := by
  obtain ⟨hfiles, place, hhas⟩ := has_created w name paths given locked
  rw [hhas.afresh, hfiles.afresh]

theorem outcome_createdWith (w : Workspace) (name : String) (paths : List String) (t : Table)
    (locked : Datum) (k : Key) :
    (read name k).outcome ((createWith name paths t locked).after w) = w.afresh paths locked t k := by
  obtain ⟨hfiles, place, hhas⟩ := has_createdWith w name paths t locked
  rw [hhas.afresh, hfiles.afresh]

/-! ## Runs -/

/-- A configuration that was made and used by itself. -/
structure Used (w : Workspace) (name : String) (paths : List String) (locked : Datum) (t : Table)
    (c : Config) : Prop extends Has w name c t where
  paths : c.paths = some paths
  locked : c.locked = some locked
  settings : OnSettings t
  coherent : c.Coherent (w.around c)

theorem Used.answer (h : w.Used name paths locked t c) (k : Key) :
    (read name k).outcome w = c.answer (w.around c) k := by
  rw [outcome_read h.config, (h.coherent.current k).reading_fst h.coherent.mergesKept]

/-- A setting reads as in a new configuration, or else is kept where there is no room for one. -/
theorem Used.outcome_cases (h : w.Used name paths locked t c) (k : Key) :
    (read name k).outcome w = w.afresh paths locked t k ∨
      ∃ d f, List.lookup k c.values = some d ∧ (read name k).outcome w = .ok d ∧
        w.Unmergeable paths t f ∧ w.afresh paths locked t k = .error f := by
  have hafresh := afresh_eq h.paths h.locked h.overrides? k
  rw [h.answer, ← hafresh]
  rcases h.coherent.answer_cases k with heq | ⟨d, f, hvalue, hd, hf⟩
  · exact .inl heq
  · have hlocked : c.locked.isSome := Option.isSome_of_eq_some h.locked
    exact .inr ⟨d, f, hvalue, hd, (refuses_iff h.paths hlocked h.overrides?).mp hf,
      Config.afresh_of_refuses hf k⟩

theorem Used.outcome (h : w.Used name paths locked t c) (hmerges : ∀ f, ¬ w.Unmergeable paths t f)
    (k : Key) : (read name k).outcome w = w.afresh paths locked t k := by
  rcases h.outcome_cases k with heq | ⟨d, f, -, -, hf, -⟩
  · exact heq
  · exact absurd hf (hmerges f)

theorem used_created (w : Workspace) (name : String) (paths : List String) (given : Option Nat)
    (locked : Datum) (ht : OnSettings (w.tableAt given)) :
    ∃ place, Used ((create name paths given locked).after w) name paths locked (w.tableAt given)
      (.made paths place locked) := by
  obtain ⟨-, place, hhas⟩ := has_created w name paths given locked
  exact ⟨place, hhas, rfl, rfl, ht, Config.made_coherent ..⟩

/-- One step leaves the configuration as it should be with the amended overrides. -/
theorem Used.step (h : w.Used name paths locked t c) (step : Step) :
    Used ((step.on name).after w) name paths locked (step.amend t) (step.alter c (w.around c)) := by
  have hparts := c.alter_sameParts h.around h.settings step
  refine ⟨h.toHas.step h.settings step, ?_, ?_, Step.amend_onSettings step h.settings, ?_⟩
  · rw [hparts.paths, h.paths]
  · rw [hparts.locked, h.locked]
  · rw [h.toHas.around_step h.settings step]
    exact h.coherent.alter h.around h.settings step

theorem Used.sameFiles (h : w.Used name paths locked t c) (step : Step) :
    SameFiles w ((step.on name).after w) :=
  (stepped_on h.config step).toSameFiles

/-- After a run the files are the same, the overrides are amended, and what is kept was kept before or
was read in the run. -/
theorem Used.run (h : w.Used name paths locked t c) (steps : List Step) :
    SameFiles w (w.runOn name steps) ∧
      ∃ c', Used (w.runOn name steps) name paths locked
          (steps.foldl (fun t step => step.amend t) t) c' ∧
        ∀ k d, List.lookup k c'.values = some d →
          Step.read k ∈ steps ∨ List.lookup k c.values = some d := by
  induction steps generalizing w t c with
  | nil => exact ⟨.refl w, c, h, fun _ _ => .inr⟩
  | cons step steps ih =>
    obtain ⟨hfiles, c', hused, hkept⟩ := ih (h.step step)
    refine ⟨(h.sameFiles step).trans hfiles, c', hused, fun k d hd => ?_⟩
    rcases hkept k d hd with hread | hbefore
    · exact .inl (List.mem_cons_of_mem step hread)
    · rcases Config.lookup_of_alter h.around h.settings hbefore with hstep | hvalue
      · exact .inl (hstep ▸ List.mem_cons_self)
      · exact .inr hvalue

theorem Used.overrides (h : w.Used name paths locked t c) :
    (readPart name .overrides).outcome w = .ok (.dict t) := by
  have ht : Workspace.overrides? { w with log := [] } c = some t := h.overrides?
  rw [outcome_eq]
  simp only [readPart, exec_bind, exec_getConfig (w := { w with log := [] }) h.config,
    exec_overridesOf, ht, Option.elim_some, exec_pure]

/-! ## Steps that fail -/

/-- Two workspaces in which a configuration was used, with the same overrides and the same values
kept. -/
structure Twins (w w' : Workspace) (name : String) (paths : List String) (locked : Datum) (t : Table)
    (c c' : Config) : Prop extends SameFiles w w' where
  used : Used w name paths locked t c
  used' : Used w' name paths locked t c'
  values : ∀ k, List.lookup k c'.values = List.lookup k c.values

theorem Twins.answer (h : Twins w w' name paths locked t c c') (k : Key) :
    c'.answer (w'.around c') k = c.answer (w.around c) k := by
  rw [Config.answer, Config.answer, h.values, afresh_eq h.used.paths h.used.locked h.used.overrides?,
    afresh_eq h.used'.paths h.used'.locked h.used'.overrides?, h.toSameFiles.afresh]

theorem Twins.outcome (h : Twins w w' name paths locked t c c') (k : Key) :
    (read name k).outcome w' = (read name k).outcome w := by
  rw [h.used.answer, h.used'.answer, h.answer]

theorem Twins.values_step (h : Twins w w' name paths locked t c c') (step : Step) (k : Key) :
    List.lookup k (step.alter c' (w'.around c')).values =
      List.lookup k (step.alter c (w.around c)).values := by
  have hs := h.used.around
  have hs' := h.used'.around
  cases step with
  | read j =>
    have hread : (c'.reading (w'.around c') j).1 = (c.reading (w.around c) j).1 := by
      rw [(h.used.coherent.current j).reading_fst h.used.coherent.mergesKept,
        (h.used'.coherent.current j).reading_fst h.used'.coherent.mergesKept, h.answer]
    rw [Step.alter, Step.alter, Config.lookup_reading, Config.lookup_reading, hread, h.values]
  | override key d =>
    simp only [Step.alter, hs, hs']
    cases Key.named? key with
    | none => exact h.values k
    | some j =>
      simp only [Config.lookup_forget]
      split
      · rfl
      · exact h.values k
  | remove key =>
    simp only [Step.alter, hs, hs', Option.any_some]
    split
    · rename_i hremove
      obtain ⟨-, hhas⟩ := Bool.and_eq_true_iff.mp hremove
      obtain ⟨j, rfl⟩ := h.used.settings key hhas
      rw [Config.lookup_forget, Config.lookup_forget]
      split
      · rfl
      · exact h.values k
    · exact h.values k

theorem Twins.step (h : Twins w w' name paths locked t c c') (step : Step) :
    Twins ((step.on name).after w) ((step.on name).after w') name paths locked (step.amend t)
      (step.alter c (w.around c)) (step.alter c' (w'.around c')) where
  toSameFiles :=
    ((h.used.sameFiles step).symm.trans h.toSameFiles).trans (h.used'.sameFiles step)
  used := h.used.step step
  used' := h.used'.step step
  values := h.values_step step

theorem Twins.outcome_run (h : Twins w w' name paths locked t c c') (steps : List Step) (k : Key) :
    (read name k).outcome (w'.runOn name steps) = (read name k).outcome (w.runOn name steps) := by
  induction steps generalizing w w' t c c' with
  | nil => exact h.outcome k
  | cons step steps ih => exact ih (h.step step)

theorem Used.twins (h : w.Used name paths locked t c) {step : Step}
    (hstep : (step.on name).outcome w = .error f) :
    Twins w ((step.on name).after w) name paths locked t c (step.alter c (w.around c)) := by
  rw [outcome_on h.config] at hstep
  have hused := h.step step
  rw [Step.amend_of_fails h.around hstep] at hused
  exact ⟨h.sameFiles step, h, hused, Config.lookup_alter_of_fails h.around hstep⟩

end Workspace

open Workspace

/-- However a configuration was used, each setting reads as in one that is made now with the overrides
in force; but a value that was read stays where there is no room to merge these. An override of what is
no setting fails, and is reported as such if the name can be quoted. What fails changes no later
reading. -/
theorem read_in_force (w : Workspace) (name fresh : String) (paths : List String)
    {given : Option Nat} (hinitial : OnSettings (w.tableAt given)) (locked : Datum)
    (steps : List Step) :
    let used := ((create name paths given locked).after w).runOn name steps
    let now := steps.foldl (fun t step => step.amend t) (w.tableAt given)
    let made := (createWith fresh paths now locked).after used
    (readPart name .overrides).outcome used = .ok (.dict now) ∧
    (∀ k, (read name k).outcome used = (read fresh k).outcome made ∨
      Step.read k ∈ steps ∧ ∃ d f, (read name k).outcome used = .ok d ∧
        (read fresh k).outcome made = .error f ∧ w.Unmergeable paths now f) ∧
    (∀ key d, Key.named? key = none →
      ∃ f, (override name key d).outcome used = .error f ∧
        (f.classOf = .attribute ↔ key.isHashable ∧ key.QuotableAlone w.room)) ∧
    ∀ (step : Step) f, (step.on name).outcome used = .error f →
      ∀ later k, (read name k).outcome (((step.on name).after used).runOn name later) =
        (read name k).outcome (used.runOn name later) := by
  intro used now made
  obtain ⟨place, hmade⟩ := used_created w name paths given locked hinitial
  obtain ⟨hfiles, c, hused, hkept⟩ := hmade.run steps
  have hsame := (has_created w name paths given locked).1.trans hfiles
  refine ⟨hused.overrides, fun k => ?_, fun key d hkey => ?_, fun step f hf later k => ?_⟩
  · rw [outcome_createdWith]
    rcases hused.outcome_cases k with heq | ⟨d, f, hvalue, hd, hmerge, hfresh⟩
    · exact .inl heq
    · rcases hkept k d hvalue with hread | hnone
      · exact .inr ⟨hread, d, f, hd, hfresh, hsame.unmergeable.mp hmerge⟩
      · cases hnone
  · obtain ⟨f, hf, hclass⟩ := Key.ofDatum_unnamed w.room hkey
    have hresult := outcome_on hused.config (.override key d)
    refine ⟨f, hresult.trans ?_, hclass⟩
    have hroom : (Workspace.around used c).room = w.room := hsame.room
    rw [Step.result, hroom, hf]
    rfl
  · exact (hused.twins hf).outcome_run later k

/-- A pair is no setting, and is not reported as one that is unknown. -/
theorem read_in_force_quiet :
    let w := { Workspace.ofFiles (.ample 0) [] with tables := [[("quiet", .bool true)]] }
    let used := ((create "c" [] (some 0) (.bool false)).after w).runOn "c"
      [.read .quiet, .override "quiet" (.int 3), .read .quiet, .override "quiet" (.bool false)]
    OnSettings (w.tableAt (some 0)) ∧ (read "c" .quiet).outcome used = .ok (.bool false) ∧
    ∃ f, (override "c" (.tuple [.int 1, .int 2]) .null).outcome used = .error f ∧
      f.classOf ≠ .attribute := by
  intro w used
  have hinitial : OnSettings (w.tableAt (some 0)) := onSettings_single .quiet (.bool true)
  have hmade := (has_created w "c" [] (some 0) (.bool false)).1
  obtain ⟨place, hused⟩ := used_created w "c" [] (some 0) (.bool false) hinitial
  obtain ⟨-, hread, hunknown, -⟩ := read_in_force w "c" "d" [] hinitial (.bool false)
    [.read .quiet, .override "quiet" (.int 3), .read .quiet, .override "quiet" (.bool false)]
  refine ⟨hinitial, ?_, ?_⟩
  · rcases hread .quiet with heq | ⟨-, d, f, -, -, hmerge⟩
    · have hfiles : SameFiles w used := hmade.trans (hused.run _).1
      refine heq.trans ?_
      rw [outcome_createdWith, hfiles.afresh]
      rfl
    · exact absurd hmerge (not_unmergeable rfl)
  · obtain ⟨f, hf, hclass⟩ := hunknown (.tuple [.int 1, .int 2]) .null rfl
    refine ⟨f, hf, fun hattribute => ?_⟩
    obtain ⟨-, item, hitems, -⟩ := hclass.mp hattribute
    cases hitems

end DateSpan.Settings
