import DateSpan.Proofs.Datum.Merging
import DateSpan.Proofs.Settings.Reading

/-! What a configuration keeps of its readings. While it keeps nothing out of date, a setting that it has
not kept reads as if nothing had been read before; one that it has kept stays as it is. -/

namespace DateSpan.Settings

/-! ## Names of settings -/

theorem Key.ofName?_name (k : Key) : ofName? k.name = some k := by
  cases k <;> decide

theorem Key.named?_name (k : Key) : named? k.name = some k := k.ofName?_name

theorem Key.name_injective {j k : Key} (h : j.name = k.name) : j = k := by
  have hj := j.ofName?_name
  rw [h, k.ofName?_name] at hj
  exact (Option.some.inj hj).symm

/-- No part of a configuration has the name of a setting. -/
theorem Part.ofName?_key (k : Key) : ofName? k.name = none := by
  cases k <;> decide

/-! ## Surroundings -/

/-- Surroundings that differ at most in the overrides of other names. -/
structure Surroundings.AgreeAt (s s' : Surroundings) (name : Datum) : Prop where
  room : s'.room = s.room
  lay : s'.lay = s.lay
  environment : s'.environment = s.environment
  overrides : s'.overrides.map (fun o => o.under name) = s.overrides.map (fun o => o.under name)

theorem Surroundings.AgreeAt.cases {s s' : Surroundings} {name : Datum} (h : s.AgreeAt s' name) :
    (s.overrides = none ∧ s'.overrides = none) ∨
      ∃ o o', s.overrides = some o ∧ s'.overrides = some o' ∧ o'.under name = o.under name := by
  have hunder := h.overrides
  cases ho : s.overrides with
  | none =>
    rw [ho] at hunder
    exact .inl ⟨rfl, Option.map_eq_none_iff.mp hunder⟩
  | some o =>
    rw [ho] at hunder
    obtain ⟨o', ho', hname⟩ := Option.map_eq_some_iff.mp hunder
    exact .inr ⟨o, o', rfl, ho', hname⟩

namespace Config

variable {c c' : Config} {s s' : Surroundings} {k : Key}

/-- The configuration as if it had read nothing. -/
def unread (c : Config) : Config :=
  ⟨c.paths, none, c.locked, [], none, none, some none, none⟩

theorem SameParts.unread (h : c.SameParts c') : c'.unread = c.unread := by
  rw [Config.unread, Config.unread, h.paths, h.locked]

def afresh (c : Config) (s : Surroundings) (k : Key) : Except Fault Datum :=
  (c.unread.reading s k).1

/-- The outcome of a reading, from what is kept if it is. -/
def answer (c : Config) (s : Surroundings) (k : Key) : Except Fault Datum :=
  (List.lookup k c.values).elim (c.afresh s k) .ok

/-- The files cannot be merged with the overrides. -/
def Refuses (c : Config) (s : Surroundings) (f : Fault) : Prop :=
  ∃ t o, (c.unread.loading s).1 = .ok t ∧ s.overrides = some o ∧ s.room.merge t o = .error f

/-- The files with the overrides over them, whether or not there is room to merge them. -/
def data (c : Config) (s : Surroundings) : Except Fault Table := do
  let t ← (c.unread.loading s).1
  s.overrides.elim (.error .unknownName) fun o => .ok (t.merge o)

/-- What a reading afresh would give if there were always room to merge. -/
def due (c : Config) (s : Surroundings) (k : Key) : Except Fault Datum :=
  (c.data s).map (fun t => t.get? k.name) >>= c.settling s k

def held (c : Config) (s : Surroundings) (k : Key) : Except Fault Datum :=
  (List.lookup k c.values).elim (c.due s k) .ok

/-! ## Files -/

def LoadedRight (c : Config) (s : Surroundings) : Prop :=
  ∀ paths t, c.paths = some paths → c.loaded = some t → ∃ files, s.lay paths = .ok (t, files)

theorem loading_loadedRight (h : c.LoadedRight s) : (c.loading s).2.LoadedRight s := by
  rcases c.loading_cases s with hc | ⟨paths, t, files, hpaths, hlay, hc | hc⟩
  · rw [hc]
    exact h
  · rw [hc]
    exact h
  · rw [hc]
    intro paths' t' hpaths' ht'
    cases hpaths.symm.trans hpaths'
    cases ht'
    exact ⟨files, hlay⟩

theorem merging_loadedRight (h : c.LoadedRight s) : (c.merging s).2.LoadedRight s := by
  have hload := loading_loadedRight h
  rcases c.merging_cases s with hc | hc | ⟨t, hc⟩
  · rw [hc]
    exact h
  · rw [hc]
    exact hload
  · rw [hc]
    exact hload

theorem reading_loadedRight (h : c.LoadedRight s) (k : Key) : (c.reading s k).2.LoadedRight s := by
  have hmerge := merging_loadedRight h
  rcases c.reading_cases s k with ⟨d, -, hc⟩ | ⟨-, ⟨f, hc⟩ | ⟨d, hc⟩⟩
  · rw [hc]
    exact h
  · rw [hc]
    exact hmerge
  · rw [hc]
    exact hmerge

theorem loading_of_loaded {t : Table} (h : c.loaded = some t) : c.loading s = (.ok t, c) := by
  simp only [loading, h]

theorem loading_fst {paths : List String} (hloaded : c.loaded = none) (hpaths : c.paths = some paths)
    (hlocked : c.locked.isSome) : (c.loading s).1 = (s.lay paths).map Prod.fst := by
  have hnone : c.locked.isNone = false := by
    rw [← Option.not_isSome, hlocked]
    rfl
  simp only [loading, hloaded, hpaths, hnone, Bool.and_false, Bool.false_eq_true, if_false]
  cases s.lay paths <;> rfl

/-- What was loaded before is what would be loaded now. -/
theorem loading_unread (h : c.LoadedRight s) (hpaths : c.paths.isSome) (hlocked : c.locked.isSome) :
    (c.unread.loading s).1 = (c.loading s).1 := by
  obtain ⟨paths, hpaths⟩ := Option.isSome_iff_exists.mp hpaths
  rw [loading_fst (c := c.unread) rfl hpaths hlocked]
  cases hloaded : c.loaded with
  | none => rw [loading_fst hloaded hpaths hlocked]
  | some t =>
    obtain ⟨files, hlay⟩ := h paths t hpaths hloaded
    rw [loading_of_loaded hloaded, hlay]
    rfl

/-! ## Merged tables -/

theorem merging_of_merged {t : Table} (h : c.merged = some t) : c.merging s = (.ok t, c) := by
  simp only [merging, h]

theorem merging_fst (h : c.merged = none) :
    (c.merging s).1 = (do
      let t ← (c.loading s).1
      s.overrides.elim (.error .unknownName) (s.room.merge t)) := by
  simp only [merging, h]
  rcases c.loading s with ⟨outcome, c'⟩
  cases outcome with
  | error f => rfl
  | ok t =>
    cases s.overrides with
    | none => rfl
    | some o =>
      simp only [bind, Except.bind, Option.elim_some]
      cases s.room.merge t o <;> rfl

/-- The values that are kept, and the table that is, do not change as files are loaded. -/
theorem loading_kept (c : Config) (s : Surroundings) :
    (c.loading s).2.values = c.values ∧ (c.loading s).2.merged = c.merged := by
  rcases c.loading_cases s with h | ⟨paths, t, files, -, -, h | h⟩
  all_goals
    rw [h]
    exact ⟨rfl, rfl⟩

theorem merging_values (c : Config) (s : Surroundings) : (c.merging s).2.values = c.values := by
  have hload := (c.loading_kept s).1
  rcases c.merging_cases s with h | h | ⟨t, h⟩
  · rw [h]
  · rw [h]
    exact hload
  · rw [h]
    exact hload

/-- A merged table is kept only as it is given. -/
theorem merged_merging {t : Table} (h : (c.merging s).2.merged = some t) :
    (c.merging s).1 = .ok t ∨ c.merged = some t := by
  rcases c.merging_cases s with hc | hc | ⟨t', hc⟩
  · rw [hc] at h
    exact .inr h
  · rw [hc, (c.loading_kept s).2] at h
    exact .inr h
  · rw [hc] at h ⊢
    exact .inl (congrArg Except.ok (Option.some.inj h))

/-- What can be merged comes to the data, and what cannot is refused. -/
theorem merging_unread (c : Config) (s : Surroundings) :
    (c.unread.merging s).1 = c.data s ∨ ∃ f, c.Refuses s f ∧ (c.unread.merging s).1 = .error f := by
  rw [merging_fst (c := c.unread) rfl, data]
  cases hload : (c.unread.loading s).1 with
  | error f => exact .inl rfl
  | ok t =>
    cases ho : s.overrides with
    | none => exact .inl rfl
    | some o =>
      cases hmerge : s.room.merge t o with
      | error f => exact .inr ⟨f, ⟨t, o, hload, ho, hmerge⟩, hmerge⟩
      | ok u =>
        cases Room.merge_eq_ok hmerge
        exact .inl hmerge

theorem merging_of_refuses {f : Fault} (h : c.Refuses s f) : (c.unread.merging s).1 = .error f := by
  obtain ⟨t, o, hload, ho, hmerge⟩ := h
  rw [merging_fst (c := c.unread) rfl, hload, ho]
  exact hmerge

theorem merging_of_merges (h : ∀ f, ¬ c.Refuses s f) : (c.unread.merging s).1 = c.data s := by
  rcases c.merging_unread s with heq | ⟨f, hf, -⟩
  · exact heq
  · exact absurd hf (h f)

theorem data_of_merging {t : Table} (h : (c.unread.merging s).1 = .ok t) : c.data s = .ok t := by
  rcases c.merging_unread s with heq | ⟨f, -, hf⟩
  · exact heq.symm.trans h
  · cases h.symm.trans hf

/-- The data under a name depend on the overrides of that name alone. -/
theorem data_congr {name : Datum} (h : s.AgreeAt s' name) :
    (c.data s').map (fun t => t.get? name) = (c.data s).map (fun t => t.get? name) := by
  have hload : (c.unread.loading s').1 = (c.unread.loading s).1 := by
    simp only [loading, h.lay]
  rw [data, data, hload]
  cases (c.unread.loading s).1 with
  | error f => rfl
  | ok t =>
    rcases h.cases with ⟨ho, ho'⟩ | ⟨o, o', ho, ho', hunder⟩
    · rw [ho, ho']
    · rw [ho, ho']
      exact congrArg Except.ok (t.get?_merge_congr hunder)

/-! ## Settings -/

/-- What a configuration keeps of its files and overrides is right for a setting. -/
structure CurrentAt (c : Config) (s : Surroundings) (k : Key) : Prop where
  paths : c.paths.isSome
  locked : c.locked.isSome
  loaded : c.LoadedRight s
  merged : ∀ t, c.merged = some t →
    (c.data s).map (fun u => u.get? k.name) = .ok (t.get? k.name)

theorem CurrentAt.merging_unread (h : c.CurrentAt s k) (hmerged : c.merged = none) :
    (c.merging s).1 = (c.unread.merging s).1 := by
  rw [merging_fst hmerged, merging_fst (c := c.unread) rfl,
    loading_unread h.loaded h.paths h.locked]

/-- A merged table that is kept goes back to overrides that can be merged still. -/
def MergesKept (c : Config) (s : Surroundings) : Prop :=
  c.merged.isSome → ∀ f, ¬ c.Refuses s f

theorem CurrentAt.merging_fst (h : c.CurrentAt s k) (hkept : c.MergesKept s) :
    (c.merging s).1.map (fun t => t.get? k.name) =
      (c.unread.merging s).1.map (fun t => t.get? k.name) := by
  cases hmerged : c.merged with
  | none => rw [h.merging_unread hmerged]
  | some t =>
    rw [merging_of_merged hmerged, merging_of_merges (hkept (Option.isSome_of_eq_some hmerged)),
      h.merged t hmerged]
    rfl

theorem CurrentAt.data_of_merging (h : c.CurrentAt s k) {t : Table}
    (ht : (c.merging s).1 = .ok t ∨ c.merged = some t) :
    (c.data s).map (fun u => u.get? k.name) = .ok (t.get? k.name) := by
  cases hmerged : c.merged with
  | none =>
    rcases ht with hgiven | hkept
    · rw [h.merging_unread hmerged] at hgiven
      rw [Config.data_of_merging hgiven]
      rfl
    · cases hmerged.symm.trans hkept
  | some t' =>
    have heq : t' = t := by
      rcases ht with hgiven | hkept
      · rw [merging_of_merged hmerged] at hgiven
        exact Except.ok.inj hgiven
      · exact Option.some.inj (hmerged.symm.trans hkept)
    exact h.merged t (heq ▸ hmerged)

theorem data_sameParts (h : c.SameParts c') (s : Surroundings) : c'.data s = c.data s := by
  rw [data, data, h.unread]

theorem refuses_sameParts (h : c.SameParts c') (s : Surroundings) (f : Fault) :
    c'.Refuses s f ↔ c.Refuses s f := by
  rw [Refuses, Refuses, h.unread]

theorem afresh_sameParts (h : c.SameParts c') (s : Surroundings) (k : Key) :
    c'.afresh s k = c.afresh s k := by
  rw [afresh, afresh, h.unread]

theorem settling_sameParts (h : c.SameParts c') (s : Surroundings) (k : Key) :
    c'.settling s k = c.settling s k := by
  funext found
  cases found with
  | none => rfl
  | some d => rw [settling, settling, h.choosing]

theorem due_sameParts (h : c.SameParts c') (s : Surroundings) (k : Key) :
    c'.due s k = c.due s k := by
  rw [due, due, data_sameParts h, settling_sameParts h]

theorem CurrentAt.of_sameParts (h : c.CurrentAt s k) (hparts : c.SameParts c')
    (hloaded : c'.LoadedRight s)
    (hmerged : ∀ t, c'.merged = some t → (c.merging s).1 = .ok t ∨ c.merged = some t) :
    c'.CurrentAt s k where
  paths := by
    rw [hparts.paths]
    exact h.paths
  locked := by
    rw [hparts.locked]
    exact h.locked
  loaded := hloaded
  merged t ht := by
    rw [data_sameParts hparts]
    exact h.data_of_merging (hmerged t ht)

theorem reading_fst (h : List.lookup k c.values = none) :
    (c.reading s k).1 = (c.merging s).1.map (fun t => t.get? k.name) >>= c.settling s k := by
  simp only [reading, h]
  rcases c.merging s with ⟨outcome, c'⟩
  cases outcome with
  | error f => rfl
  | ok t =>
    simp only [Except.map, bind, Except.bind]
    cases c.settling s k (t.get? k.name) <;> rfl

theorem afresh_eq (c : Config) (s : Surroundings) (k : Key) :
    c.afresh s k = (c.unread.merging s).1.map (fun t => t.get? k.name) >>= c.settling s k :=
  reading_fst rfl

theorem afresh_of_refuses {f : Fault} (h : c.Refuses s f) (k : Key) : c.afresh s k = .error f := by
  rw [afresh_eq, merging_of_refuses h]
  rfl

theorem afresh_of_merges (h : ∀ f, ¬ c.Refuses s f) (k : Key) : c.afresh s k = c.due s k := by
  rw [afresh_eq, merging_of_merges h, due]

theorem reading_of_kept {d : Datum} (h : List.lookup k c.values = some d) :
    c.reading s k = (.ok d, c) := by
  simp only [reading, h]

theorem CurrentAt.reading_fst (h : c.CurrentAt s k) (hkept : c.MergesKept s) :
    (c.reading s k).1 = c.answer s k := by
  rw [answer]
  cases hvalue : List.lookup k c.values with
  | some d =>
    rw [reading_of_kept hvalue]
    rfl
  | none =>
    rw [Config.reading_fst hvalue, h.merging_fst hkept, ← afresh_eq]
    rfl

/-- Where the overrides can be merged, a reading gives what is held. -/
theorem CurrentAt.reading_held (h : c.CurrentAt s k) (hmerges : ∀ f, ¬ c.Refuses s f) :
    (c.reading s k).1 = c.held s k := by
  rw [h.reading_fst fun _ => hmerges, answer, held, afresh_of_merges hmerges]

/-- A value that is read is what is held, whether or not the overrides can be merged. -/
theorem CurrentAt.held_of_reading (h : c.CurrentAt s k) {d : Datum}
    (hd : (c.reading s k).1 = .ok d) : c.held s k = .ok d := by
  rw [held]
  cases hvalue : List.lookup k c.values with
  | some d' =>
    rw [reading_of_kept hvalue] at hd
    exact hd
  | none =>
    rw [Config.reading_fst hvalue] at hd
    rw [Option.elim_none, due]
    cases hmerging : (c.merging s).1 with
    | error f =>
      rw [hmerging] at hd
      cases hd
    | ok t =>
      rw [hmerging] at hd
      rw [h.data_of_merging (.inl hmerging)]
      exact hd

theorem merged_reading {t : Table} {j : Key} (h : (c.reading s j).2.merged = some t) :
    (c.merging s).1 = .ok t ∨ c.merged = some t := by
  rcases c.reading_cases s j with ⟨d, -, hc⟩ | ⟨-, ⟨f, hc⟩ | ⟨d, hc⟩⟩
  · rw [hc] at h
    exact .inr h
  · rw [hc] at h
    exact merged_merging h
  · rw [hc] at h
    exact merged_merging h

theorem CurrentAt.reading (h : c.CurrentAt s k) (j : Key) : (c.reading s j).2.CurrentAt s k :=
  h.of_sameParts (c.reading_sameParts s j) (reading_loadedRight h.loaded j) fun _ => merged_reading

/-- A reading keeps its own setting if it gives a value, and leaves the others. -/
theorem lookup_reading (c : Config) (s : Surroundings) (j k : Key) :
    List.lookup k (c.reading s j).2.values =
      if k = j then (c.reading s j).1.toOption else List.lookup k c.values := by
  have hmerge := c.merging_values s
  rcases c.reading_cases s j with ⟨d, hvalue, hc⟩ | ⟨hvalue, ⟨f, hc⟩ | ⟨d, hc⟩⟩
  · -- what was kept is given again
    rw [hc]
    split
    · rename_i hk
      rw [hk]
      exact hvalue
    · rfl
  · rw [hc, hmerge]
    split
    · rename_i hk
      rw [hk]
      exact hvalue
    · rfl
  · rw [hc, List.lookup_cons, hmerge]
    split
    · rename_i hk
      rw [eq_of_beq hk, if_pos rfl]
      rfl
    · rename_i hk
      rw [if_neg (ne_of_beq_false hk)]

theorem CurrentAt.mergesKept_reading (h : c.CurrentAt s k) (hkept : c.MergesKept s) (j : Key) :
    (c.reading s j).2.MergesKept s := by
  intro hsome f hrefuses
  obtain ⟨t, ht⟩ := Option.isSome_iff_exists.mp hsome
  rw [refuses_sameParts (c.reading_sameParts s j)] at hrefuses
  cases hmerged : c.merged with
  | some t' => exact hkept (Option.isSome_of_eq_some hmerged) f hrefuses
  | none =>
    rcases merged_reading ht with hgiven | hheld
    · rw [h.merging_unread hmerged, merging_of_refuses hrefuses] at hgiven
      cases hgiven
    · cases hmerged.symm.trans hheld

/-- No reading changes what another gives. -/
theorem CurrentAt.answer_reading (h : c.CurrentAt s k) (hkept : c.MergesKept s) (j : Key) :
    (c.reading s j).2.answer s k = c.answer s k := by
  have hafresh := afresh_sameParts (c.reading_sameParts s j) s k
  rw [answer, lookup_reading, hafresh]
  by_cases hk : k = j
  · subst hk
    rw [if_pos rfl, h.reading_fst hkept, answer]
    -- a fault is not kept, and is what a reading afresh gives
    cases List.lookup k c.values with
    | some d => rfl
    | none =>
      simp only [Option.elim_none]
      cases c.afresh s k <;> rfl
  · rw [if_neg hk, answer]

theorem CurrentAt.held_reading (h : c.CurrentAt s k) (j : Key) :
    (c.reading s j).2.held s k = c.held s k := by
  have hdue := due_sameParts (c.reading_sameParts s j) s k
  rw [held, lookup_reading, hdue]
  by_cases hk : k = j
  · subst hk
    rw [if_pos rfl]
    cases hread : (c.reading s k).1 with
    | ok d =>
      rw [h.held_of_reading hread]
      rfl
    | error f =>
      cases hvalue : List.lookup k c.values with
      | none =>
        rw [held, hvalue]
        rfl
      | some d =>
        rw [reading_of_kept hvalue] at hread
        cases hread
  · rw [if_neg hk, held]

theorem settling_congr (h : s.AgreeAt s' k.name) : c.settling s' k = c.settling s k := by
  have hchoosing : c.choosing s' k = c.choosing s k := by
    funext d
    unfold choosing
    rw [h.room, h.environment]
    rcases h.cases with ⟨ho, ho'⟩ | ⟨o, o', ho, ho', hunder⟩
    · rw [ho, ho']
    · simp only [ho, ho', Table.has_eq, hunder]
  funext found
  cases found with
  | none => rfl
  | some d => simp only [settling, hchoosing]

theorem due_congr (h : s.AgreeAt s' k.name) : c.due s' k = c.due s k := by
  rw [due, due, data_congr h, settling_congr h]

theorem CurrentAt.congr (h : c.CurrentAt s k) (hs : s.AgreeAt s' k.name) : c.CurrentAt s' k where
  paths := h.paths
  locked := h.locked
  loaded paths t := by
    rw [hs.lay]
    exact h.loaded paths t
  merged t ht := by
    rw [data_congr hs]
    exact h.merged t ht

/-! ## Forgetting -/

theorem forget_key (c : Config) (j : Key) :
    c.forget j.name = { c with values := c.values.filter fun (k, _) => j ≠ k, merged := none } := by
  have hpart : (Datum.asText? j.name).bind Part.ofName? = none := Part.ofName?_key j
  simp only [forget, hpart, j.named?_name, Option.elim_none, ne_eq, Option.some.injEq]

theorem forget_sameParts (c : Config) (j : Key) : c.SameParts (c.forget j.name) := by
  rw [forget_key]
  exact ⟨rfl, rfl, rfl⟩

theorem lookup_forget (c : Config) (j k : Key) :
    List.lookup k (c.forget j.name).values = if k = j then none else List.lookup k c.values := by
  rw [forget_key]
  simp only
  induction c.values with
  | nil => exact (ite_self none).symm
  | cons e values ih =>
    obtain ⟨i, d⟩ := e
    by_cases hi : j = i
    · subst hi
      rw [List.filter_cons_of_neg (by simp), ih]
      split
      · rfl
      · rename_i hk
        rw [List.lookup_cons, beq_false_of_ne hk]
    · rw [List.filter_cons_of_pos (by simpa using hi), List.lookup_cons, List.lookup_cons, ih]
      by_cases hk : k = i
      · subst hk
        simp only [beq_self_eq_true, if_neg (Ne.symm hi)]
      · rw [beq_false_of_ne hk]

/-- What has just been forgotten is not out of date, whatever the overrides are now. -/
theorem CurrentAt.forget (h : c.CurrentAt s k) (hlay : s'.lay = s.lay) (j : Key) :
    (c.forget j.name).CurrentAt s' k := by
  rw [forget_key]
  refine ⟨h.paths, h.locked, fun paths t hpaths ht => ?_, fun t ht => ?_⟩
  · rw [hlay]
    exact h.loaded paths t hpaths ht
  · cases ht

end Config

end DateSpan.Settings
