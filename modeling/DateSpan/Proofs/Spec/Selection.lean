import DateSpan.Proofs.Outcome
import DateSpan.Proofs.Version.Order
import DateSpan.Selection
import DateSpan.Spec.Coercion
import Mathlib.Data.List.ReduceOption
import Mathlib.Order.Lattice

/-! Selecting versions. The candidates are taken one after another, and what is kept is the greatest of those so
far that satisfy, in the order of versions or in its opposite. A spec selects the greatest of what its ranges
select. -/

namespace DateSpan

namespace Selection

variable {α : Type} {make : α → Except Fault Version} {satisfies : Version → Bool}
  {better : Version → Version → Bool} {le : Version → Version → Prop} {candidates : List α}
  {versions vs ws : List Version} {found found' : Option Version} {f : Fault}

/-! ## Greatest versions -/

/-- The greatest of the versions in an order, and none just of no versions. -/
structure Greatest (le : Version → Version → Prop) (vs : List Version) (found : Option Version) :
    Prop where
  none_iff : found = none ↔ vs = []
  mem : ∀ v, found = some v → v ∈ vs
  le : ∀ v, found = some v → ∀ w ∈ vs, le w v

theorem Greatest.nil : Greatest le [] none :=
  ⟨iff_of_true rfl rfl, nofun, nofun⟩

theorem greatest_some_iff {v : Version} :
    Greatest le vs (some v) ↔ v ∈ vs ∧ ∀ w ∈ vs, le w v := by
  constructor
  · exact fun h => ⟨h.mem v rfl, h.le v rfl⟩
  · rintro ⟨hmem, hle⟩
    refine ⟨iff_of_false nofun (List.ne_nil_of_mem hmem), ?_, ?_⟩
    · intro w hw
      cases hw
      exact hmem
    · intro w hw
      cases hw
      exact hle

theorem Greatest.exists_ge (h : Greatest le vs found) {v : Version} (hv : v ∈ vs) :
    ∃ w, found = some w ∧ le v w := by
  cases found with
  | none =>
    rw [h.none_iff.mp rfl] at hv
    cases hv
  | some w => exact ⟨w, rfl, h.le w rfl v hv⟩

section Order

variable [IsLinearOrder Version le]

/-- Versions of which each is among others or below one of them that is, have the same greatest. -/
theorem Greatest.of_cofinal (h : Greatest le vs found) (hmem : ∀ w ∈ ws, w ∈ vs)
    (hle : ∀ v ∈ vs, ∃ w ∈ ws, le v w) : Greatest le ws found where
  none_iff := by
    rw [h.none_iff, List.eq_nil_iff_forall_not_mem, List.eq_nil_iff_forall_not_mem]
    constructor
    · exact fun hvs w hw => hvs w (hmem w hw)
    · intro hws v hv
      obtain ⟨w, hw, -⟩ := hle v hv
      exact hws w hw
  mem := by
    intro v hv
    obtain ⟨w, hw, hvw⟩ := hle v (h.mem v hv)
    have hwv := h.le v hv w (hmem w hw)
    rwa [antisymm hvw hwv]
  le := fun v hv w hw => h.le v hv w (hmem w hw)

theorem Greatest.unique (h : Greatest le vs found) (h' : Greatest le vs found') : found = found' := by
  cases found with
  | none => exact (h'.none_iff.mpr (h.none_iff.mp rfl)).symm
  | some v =>
    cases found' with
    | none => cases h.none_iff.mpr (h'.none_iff.mp rfl)
    | some w =>
      exact congrArg some (antisymm (h'.le w rfl v (h.mem v rfl)) (h.le v rfl w (h'.mem w rfl)))

theorem Greatest.perm (h : Greatest le vs found) (hperm : ws.Perm vs) : Greatest le ws found :=
  h.of_cofinal (fun _ => hperm.mem_iff.mp) fun v hv => ⟨v, hperm.mem_iff.mpr hv, refl v⟩

theorem keep_mem (better : Version → Version → Bool) (w v : Version) :
    keep better w v = w ∨ keep better w v = v := by
  rw [keep]
  split
  · exact .inr rfl
  · exact .inl rfl

theorem le_keep (hbetter : ∀ v w, better v w ↔ ¬ le v w) (w v : Version) :
    le w (keep better w v) ∧ le v (keep better w v) := by
  rw [keep]
  split
  · rename_i hvw
    exact ⟨(total_of le w v).resolve_right ((hbetter v w).mp hvw), refl v⟩
  · rename_i hvw
    exact ⟨refl w, not_not.mp (mt (hbetter v w).mpr hvw)⟩

/-- Of the greatest so far and one more version the greater is kept. -/
theorem Greatest.keep (hbetter : ∀ v w, better v w ↔ ¬ le v w) (h : Greatest le vs found)
    (v : Version) :
    Greatest le (vs ++ [v]) (some (found.elim v fun w => keep better w v)) := by
  cases found with
  | none =>
    rw [h.none_iff.mp rfl]
    exact greatest_some_iff.mpr ⟨List.mem_singleton_self v, List.forall_mem_singleton.mpr (refl v)⟩
  | some w =>
    obtain ⟨hw, hall⟩ := greatest_some_iff.mp h
    obtain ⟨hwk, hvk⟩ := le_keep hbetter w v
    have hmem : Selection.keep better w v ∈ vs ++ [v] := by
      rcases keep_mem better w v with hkeep | hkeep <;> rw [hkeep]
      · exact List.mem_append_left _ hw
      · exact List.mem_append_right _ (List.mem_singleton_self v)
    exact greatest_some_iff.mpr ⟨hmem, List.forall_mem_append.mpr
      ⟨fun u hu => trans_of le (hall u hu) hwk, List.forall_mem_singleton.mpr hvk⟩⟩

end Order

/-! ## One candidate after another -/

/-- What is kept after one more candidate. -/
def choose (make : α → Except Fault Version) (satisfies : Version → Bool)
    (better : Version → Version → Bool) (found : Option Version) (c : α) :
    Except Fault (Option Version) := do
  let v ← make c
  if satisfies v then return some (found.elim v fun w => Selection.keep better w v)
  return found

theorem best_eq_foldlM :
    best make satisfies better candidates = candidates.foldlM (choose make satisfies better) none :=
  rfl

theorem choose_ok {c : α} {v : Version} (h : make c = .ok v) (found : Option Version) :
    choose make satisfies better found c =
      .ok (if satisfies v then some (found.elim v fun w => keep better w v) else found) := by
  rw [choose, h]
  exact (apply_ite Except.ok _ _ _).symm

theorem choose_error {c : α} (h : make c = .error f) (found : Option Version) :
    choose make satisfies better found c = .error f := by
  rw [choose, h]
  rfl

/-- The first candidate that is no version ends it. -/
theorem foldlM_error {before after : List α} {c : α} (hbefore : ∀ b ∈ before, ∃ v, make b = .ok v)
    (hc : make c = .error f) (found : Option Version) :
    (before ++ c :: after).foldlM (choose make satisfies better) found = .error f := by
  induction before generalizing found with
  | nil =>
    rw [List.nil_append, List.foldlM_cons, choose_error hc]
    rfl
  | cons b before ih =>
    obtain ⟨⟨v, hv⟩, hbefore⟩ := List.forall_mem_cons.mp hbefore
    rw [List.cons_append, List.foldlM_cons, choose_ok hv]
    exact ih hbefore _

section Order

variable [IsLinearOrder Version le]

theorem choose_greatest (hbetter : ∀ v w, better v w ↔ ¬ le v w) (h : Greatest le vs found) {c : α}
    {v : Version} (hc : make c = .ok v) :
    ∃ found', choose make satisfies better found c = .ok found' ∧
      Greatest le (vs ++ [v].filter satisfies) found' := by
  refine ⟨_, choose_ok hc found, ?_⟩
  by_cases hv : satisfies v
  · rw [if_pos hv, List.filter_cons_of_pos hv]
    exact h.keep hbetter v
  · rw [if_neg hv, List.filter_cons_of_neg hv, List.filter_nil, List.append_nil]
    exact h

theorem foldlM_greatest (hbetter : ∀ v w, better v w ↔ ¬ le v w)
    (h : List.Forall₂ (fun c v => make c = .ok v) candidates versions) (hseen : Greatest le vs found) :
    ∃ found', candidates.foldlM (choose make satisfies better) found = .ok found' ∧
      Greatest le (vs ++ versions.filter satisfies) found' := by
  -- What was kept so far is the greatest of `vs`, the versions before these that satisfy.
  induction h generalizing vs found with
  | nil =>
    rw [List.filter_nil, List.append_nil]
    exact ⟨found, rfl, hseen⟩
  | @cons c v cs versions hc _ ih =>
    obtain ⟨next, hnext, hgreatest⟩ := choose_greatest hbetter hseen hc
    obtain ⟨found', hfound', hgreatest'⟩ := ih hgreatest
    rw [List.append_assoc, ← List.filter_append, List.singleton_append] at hgreatest'
    refine ⟨found', ?_, hgreatest'⟩
    rw [List.foldlM_cons, hnext]
    exact hfound'

theorem best_greatest (hbetter : ∀ v w, better v w ↔ ¬ le v w)
    (h : candidates.mapM make = .ok versions) (satisfies : Version → Bool) :
    ∃ found, best make satisfies better candidates = .ok found ∧
      Greatest le (versions.filter satisfies) found := by
  rw [best_eq_foldlM]
  exact foldlM_greatest hbetter (mapM_eq_ok_iff.mp h) .nil

end Order

/-- All that satisfy come from candidates that are versions, whatever stands after them. -/
theorem satisfying_append (h : List.Forall₂ (fun c v => make c = .ok v) candidates versions)
    (rest : List α) (satisfies : Version → Bool) :
    satisfying make satisfies (candidates ++ rest) =
      (versions.filter satisfies ++ (satisfying make satisfies rest).1,
        (satisfying make satisfies rest).2) := by
  induction h with
  | nil => rfl
  | @cons c v cs versions hc _ ih =>
    rw [List.cons_append, satisfying, hc, ih]
    by_cases hv : satisfies v
    · rw [List.filter_cons_of_pos hv]
      exact Prod.ext (if_pos hv) rfl
    · rw [List.filter_cons_of_neg hv]
      exact Prod.ext (if_neg hv) rfl

theorem satisfying_ok (h : candidates.mapM make = .ok versions) (satisfies : Version → Bool) :
    satisfying make satisfies candidates = (versions.filter satisfies, none) := by
  have happend := satisfying_append (mapM_eq_ok_iff.mp h) [] satisfies
  rwa [List.append_nil, satisfying, List.append_nil] at happend

/-! ## Selections -/

section Order

variable [IsLinearOrder Version le]

/-- The greatest of all versions is the greatest of those that are the greatest of a part. -/
theorem Greatest.of_parts {ι : Type} {is : List ι} {part : ι → List Version}
    {result : ι → Option Version} (h : Greatest le vs found)
    (hresult : ∀ i, Greatest le (part i) (result i)) (hmem : ∀ v, v ∈ vs ↔ ∃ i ∈ is, v ∈ part i) :
    Greatest le (is.map result).reduceOption found := by
  refine h.of_cofinal (fun w hw => ?_) fun v hv => ?_
  · obtain ⟨i, hi, hw⟩ := List.mem_map.mp (List.reduceOption_mem_iff.mp hw)
    exact (hmem w).mpr ⟨i, hi, (hresult i).mem w hw⟩
  · obtain ⟨i, hi, hvi⟩ := (hmem v).mp hv
    obtain ⟨w, hw, hvw⟩ := (hresult i).exists_ge hvi
    exact ⟨w, List.reduceOption_mem_iff.mpr (List.mem_map.mpr ⟨i, hi, hw⟩), hvw⟩

end Order

/-- A selection finds the greatest in an order. -/
structure Finds (make : α → Except Fault Version)
    (select : (Version → Bool) → List α → Except Fault (Option Version))
    (le : Version → Version → Prop) (candidates : List α) : Prop where
  /-- Of candidates that are all versions it is the greatest of those that satisfy. -/
  greatest : ∀ versions, candidates.mapM make = .ok versions → ∀ satisfies,
    ∃ found, select satisfies candidates = .ok found ∧ Greatest le (versions.filter satisfies) found
  /-- Their order does not matter. -/
  perm : ∀ versions, candidates.mapM make = .ok versions →
    ∀ candidates' : List α, candidates'.Perm candidates → ∀ satisfies,
      select satisfies candidates' = select satisfies candidates
  /-- A spec selects the greatest of what its ranges select. -/
  ranges : ∀ versions, candidates.mapM make = .ok versions → ∀ s : Spec,
    ∃ found founds, select s.contains candidates = .ok found ∧
      s.ranges.mapM (fun r => select r.contains candidates) = .ok founds ∧
      Greatest le founds.reduceOption found
  /-- The fault is that of the first candidate that is no version. -/
  fault : ∀ before c after f, candidates = before ++ c :: after →
    (∀ b ∈ before, ∃ v, make b = .ok v) → make c = .error f →
    ∀ satisfies, select satisfies candidates = .error f

theorem mem_filter_contains (s : Spec) (versions : List Version) (v : Version) :
    v ∈ versions.filter s.contains ↔ ∃ r ∈ s.ranges, v ∈ versions.filter r.contains := by
  simp only [List.mem_filter, Spec.contains, List.any_eq_true]
  constructor
  · rintro ⟨hv, r, hr, hcontains⟩
    exact ⟨r, hr, hv, hcontains⟩
  · rintro ⟨r, hr, hv, hcontains⟩
    exact ⟨hv, r, hr, hcontains⟩

/-- Keeping the better of two finds the greatest in an order that tells which is better. -/
theorem best_finds [IsLinearOrder Version le] (hbetter : ∀ v w, better v w ↔ ¬ le v w)
    (candidates : List α) :
    Finds make (fun satisfies => best make satisfies better) le candidates where
  greatest := fun _ h => best_greatest hbetter h
  perm := by
    intro versions h candidates' hperm satisfies
    obtain ⟨versions', h', hperm'⟩ := mapM_perm hperm h
    obtain ⟨found, hfound, hgreatest⟩ := best_greatest hbetter h satisfies
    obtain ⟨found', hfound', hgreatest'⟩ := best_greatest hbetter h' satisfies
    rw [hfound, hfound', hgreatest'.unique (hgreatest.perm (hperm'.filter satisfies))]
  ranges := by
    intro versions h s
    obtain ⟨found, hfound, hgreatest⟩ := best_greatest hbetter h s.contains
    choose result hresult hparts using fun r : Range => best_greatest hbetter h r.contains
    refine ⟨found, s.ranges.map result, hfound, ?_,
      hgreatest.of_parts hparts (mem_filter_contains s versions)⟩
    rw [funext hresult]
    exact List.mapM_pure
  fault := by
    rintro before c after f rfl hbefore hc satisfies
    rw [best_eq_foldlM]
    exact foldlM_error hbefore hc none

theorem later_iff (v w : Version) : decide (w.seconds < v.seconds) ↔ ¬ v ≤ w :=
  decide_eq_true_iff.trans Nat.not_le.symm

/-- Of candidates that are all versions, iterating gives those that lie in a range or a spec, or satisfy any
other condition, in their order and as often as they stand. The latest and the earliest of them are found,
whatever the order of the candidates, and those of a spec from those of its ranges. -/
theorem selections (p : Policy) (candidates : List Datum) :
    (∀ versions, candidates.mapM (Version.ofDatum p) = .ok versions → ∀ satisfies,
      satisfying (Version.ofDatum p) satisfies candidates = (versions.filter satisfies, none)) ∧
    Finds (Version.ofDatum p) (latest? (Version.ofDatum p)) (· ≤ ·) candidates ∧
    Finds (Version.ofDatum p) (earliest? (Version.ofDatum p)) (· ≥ ·) candidates :=
  ⟨fun _ h => satisfying_ok h, best_finds later_iff candidates,
    best_finds (fun v w => later_iff w v) candidates⟩

/-- Versions before the third second or after the first: the latest is that of the two ranges. Null is
refused. -/
theorem selections_overlapping :
    ∃ (s : Spec) (versions : List Version),
      (versions.map Datum.version).mapM (Version.ofDatum .plain) = .ok versions ∧
      satisfying (Version.ofDatum .plain) s.contains (versions.map .version) =
        (versions.filter s.contains, none) ∧
      (∃ found founds,
        latest? (Version.ofDatum .plain) s.contains (versions.map .version) = .ok found ∧
        s.ranges.mapM (fun r =>
          latest? (Version.ofDatum .plain) r.contains (versions.map .version)) = .ok founds ∧
        Greatest (· ≤ ·) founds.reduceOption found) ∧
      earliest? (Version.ofDatum .plain) s.contains [.version ⟨3, by decide⟩, .null, .int (-1)] =
        .error (.versionType "NoneType") := by
  let before : Range := ⟨⟨none, some (.closed ⟨2, by decide⟩)⟩, rfl, rfl, by decide⟩
  let after : Range := ⟨⟨some (.closed ⟨1, by decide⟩), none⟩, rfl, rfl, by decide⟩
  let versions : List Version := [⟨3, by decide⟩, ⟨1, by decide⟩, ⟨3, by decide⟩]
  have hversions : (versions.map Datum.version).mapM (Version.ofDatum .plain) = .ok versions := rfl
  obtain ⟨hsatisfying, hlatest, -⟩ := selections .plain (versions.map .version)
  obtain ⟨-, -, hearliest⟩ := selections .plain [.version ⟨3, by decide⟩, .null, .int (-1)]
  refine ⟨⟨[before, after], List.cons_ne_nil _ _⟩, versions, hversions,
    hsatisfying versions hversions _, hlatest.ranges versions hversions _, ?_⟩
  exact hearliest.fault [.version ⟨3, by decide⟩] .null [.int (-1)] _ rfl
    (List.forall_mem_singleton.mpr ⟨_, rfl⟩) rfl _

end Selection

end DateSpan
