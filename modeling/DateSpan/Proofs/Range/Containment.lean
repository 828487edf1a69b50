import DateSpan.Proofs.Range.Members
import DateSpan.Proofs.Range.Writing

/-! Ranges as sets of versions. Inclusion is inclusion of the versions, and equality is equality of the
versions, of ranges that are bounded on the same sides: a range without an end goes on past the
versions, so it is told from one that ends with the last of them. -/

namespace DateSpan

theorem Limit.second_le_final (v : Version) : second v.seconds ≤ second Version.final.seconds :=
  (second_le_second _ _).mpr (Int.ofNat_le.mpr (Nat.le_sub_one_of_lt v.inCalendar))

namespace Bounds

theorem first_le_versionSeconds (b : Bounds) : b.first ≤ .second versionSeconds := by
  cases h : b.first with
  | below => exact Limit.below_le _
  | above => exact absurd h b.first_ne_above
  | second n => exact (Limit.second_le_second _ _).mpr (first_bounds h).2

end Bounds

namespace Range

variable {r s : Range}

/-! ## Inclusion -/

theorem contains_of_includes (h : r.includes s) {v : Version} (hv : s.contains v) : r.contains v := by
  obtain ⟨hfirst, hlast⟩ := (r.includes_iff s).mp h
  obtain ⟨hv, hv'⟩ := (s.contains_iff v).mp hv
  exact (r.contains_iff v).mpr ⟨hfirst.trans hv, hv'.trans hlast⟩

/-- A range that has the versions of another starts no later, if it starts at all only where the other
does. -/
theorem first_le_first (h : ∀ v, s.contains v → r.contains v) (hlower : s.lower = none → r.lower = none) :
    r.first ≤ s.first := by
  by_cases hstart : s.lower = none
  · rw [r.first_eq_below_iff.mpr (hlower hstart)]
    exact Limit.below_le _
  · by_cases hlate : s.toBounds = .afterFinal
    · rw [hlate, Bounds.afterFinal_first]
      exact r.first_le_versionSeconds
    · obtain ⟨v, hv, hholds⟩ := Bounds.holds_first s.first_le_last hlate hstart
      rw [hv]
      exact ((r.contains_iff v).mp (h v ((s.contains_iff_holds v).mpr hholds))).1

theorem last_le_last (h : ∀ v, s.contains v → r.contains v) (hupper : s.upper = none → r.upper = none) :
    s.last ≤ r.last := by
  by_cases hend : s.upper = none
  · rw [r.last_eq_above_iff.mpr (hupper hend)]
    exact Limit.le_above _
  · obtain ⟨v, hv, hholds⟩ := Bounds.holds_last s.first_le_last s.zero_le_last hend
    rw [hv]
    exact ((r.contains_iff v).mp (h v ((s.contains_iff_holds v).mpr hholds))).2

theorem includes_iff_forall (r s : Range) :
    r.includes s ↔ (∀ v, s.contains v → r.contains v) ∧ (s.lower = none → r.lower = none) ∧
      (s.upper = none → r.upper = none) := by
  constructor
  · intro h
    obtain ⟨hfirst, hlast⟩ := (r.includes_iff s).mp h
    refine ⟨fun v => contains_of_includes h, fun hlower => ?_, fun hupper => ?_⟩
    · rw [← s.first_eq_below_iff] at hlower
      rw [hlower, Limit.le_below_iff] at hfirst
      exact r.first_eq_below_iff.mp hfirst
    · rw [← s.last_eq_above_iff] at hupper
      rw [hupper, Limit.above_le_iff] at hlast
      exact r.last_eq_above_iff.mp hlast
  · rintro ⟨h, hlower, hupper⟩
    exact (r.includes_iff s).mpr ⟨first_le_first h hlower, last_le_last h hupper⟩

/-- A version makes the range that it alone lies in, and lies in another just when that range does. -/
theorem ofVersion_includes (r : Range) (v : Version) :
    ∃ s, ofVersion v = .ok s ∧ r.includes s = r.contains v := by
  obtain ⟨s, hbounds, hfirst, hlast⟩ := exists_singleton v
  refine ⟨s, ofBounds_eq_ok_iff.mpr hbounds, ?_⟩
  rw [includes, contains, hfirst, hlast]

/-- A range includes another just when it has all versions of the other and goes on without end wherever
the other does. A version is included as its range is, however it is given. -/
theorem includes_versions (p : Policy) (r : Range) :
    (∀ s : Range, r.includesDatum p (.range s) = .ok (r.includes s) ∧
      (r.includes s ↔ (∀ v, s.contains v → r.contains v) ∧ (s.lower = none → r.lower = none) ∧
        (s.upper = none → r.upper = none))) ∧
    ∀ v : Version, r.includesDatum p (.version v) = .ok (r.contains v) ∧
      (Version.ofDatum p (.version v)).map r.contains = .ok (r.contains v) ∧
      ∃ s, ofDatum p (.version v) = .ok s ∧ r.includes s = r.contains v :=
  ⟨fun s => ⟨rfl, includes_iff_forall r s⟩, fun v => ⟨rfl, rfl, ofVersion_includes r v⟩⟩

/-! ## Equality -/

/-- The same versions lie in both ranges. -/
def SameVersions (r s : Range) : Prop :=
  ∀ v, r.contains v ↔ s.contains v

theorem equals_iff_includes (r s : Range) : r.equals s ↔ r.includes s ∧ s.includes r := by
  rw [equals_iff, includes_iff, includes_iff]
  constructor
  · rintro ⟨hfirst, hlast⟩
    exact ⟨⟨hfirst.le, hlast.ge⟩, hfirst.ge, hlast.le⟩
  · rintro ⟨⟨hfirst, hlast⟩, hfirst', hlast'⟩
    exact ⟨le_antisymm hfirst hfirst', le_antisymm hlast' hlast⟩

theorem equals_iff_sameVersions (r s : Range) :
    r.equals s ↔ r.SameVersions s ∧ (r.lower = none ↔ s.lower = none) ∧
      (r.upper = none ↔ s.upper = none) := by
  rw [equals_iff_includes, includes_iff_forall, includes_iff_forall]
  constructor
  · rintro ⟨⟨h, hlower, hupper⟩, h', hlower', hupper'⟩
    exact ⟨fun v => ⟨h' v, h v⟩, ⟨hlower', hlower⟩, hupper', hupper⟩
  · rintro ⟨h, hlower, hupper⟩
    exact ⟨⟨fun v => (h v).mpr, hlower.mpr, hupper.mpr⟩, fun v => (h v).mp, hlower.mp, hupper.mp⟩

/-! ## Ends among the versions -/

/-- The start of a range, but not before the first version. -/
def firstWithin (r : Range) : Limit :=
  max (.second 0) r.first

/-- The end of a range, but not after the last version. -/
def lastWithin (r : Range) : Limit :=
  min (.second Version.final.seconds) r.last

theorem contains_iff_within (r : Range) (v : Version) :
    r.contains v ↔ r.firstWithin ≤ .second v.seconds ∧ .second v.seconds ≤ r.lastWithin := by
  have hzero : Limit.second 0 ≤ .second v.seconds :=
    (Limit.second_le_second _ _).mpr (Int.natCast_nonneg _)
  have hfinal := Limit.second_le_final v
  rw [contains_iff, firstWithin, lastWithin, max_le_iff, le_min_iff]
  exact ⟨fun h => ⟨⟨hzero, h.1⟩, hfinal, h.2⟩, fun h => ⟨h.1.2, h.2.2⟩⟩

section Attained

variable (hne : r.toBounds ≠ .afterFinal)

include hne

theorem exists_firstWithin : ∃ v, r.contains v ∧ r.firstWithin = .second v.seconds := by
  by_cases hlower : r.lower = none
  · refine ⟨⟨0, by decide⟩, (r.contains_iff _).mpr ⟨?_, r.zero_le_last⟩, ?_⟩
    · rw [r.first_eq_below_iff.mpr hlower]
      exact Limit.below_le _
    · rw [firstWithin, r.first_eq_below_iff.mpr hlower]
      rfl
  · obtain ⟨v, hfirst, hv⟩ := Bounds.holds_first r.first_le_last hne hlower
    refine ⟨v, (r.contains_iff_holds v).mpr hv, ?_⟩
    rw [firstWithin, hfirst]
    exact max_eq_right ((Limit.second_le_second _ _).mpr (Int.natCast_nonneg _))

theorem exists_lastWithin : ∃ v, r.contains v ∧ r.lastWithin = .second v.seconds := by
  by_cases hupper : r.upper = none
  · obtain ⟨v, hv⟩ := Bounds.exists_holds r.first_le_last r.zero_le_last hne r.present
    refine ⟨.final, (r.contains_iff _).mpr ⟨hv.1.trans (Limit.second_le_final v), ?_⟩, ?_⟩
    · rw [r.last_eq_above_iff.mpr hupper]
      exact Limit.le_above _
    · rw [lastWithin, r.last_eq_above_iff.mpr hupper]
      rfl
  · obtain ⟨v, hlast, hv⟩ := Bounds.holds_last r.first_le_last r.zero_le_last hupper
    refine ⟨v, (r.contains_iff_holds v).mpr hv, ?_⟩
    rw [lastWithin, hlast]
    exact min_eq_right (Limit.second_le_final v)

end Attained

theorem within_le (hne : s.toBounds ≠ .afterFinal) (h : ∀ v, s.contains v → r.contains v) :
    r.firstWithin ≤ s.firstWithin ∧ s.lastWithin ≤ r.lastWithin := by
  obtain ⟨v, hv, hfirst⟩ := exists_firstWithin hne
  obtain ⟨w, hw, hlast⟩ := exists_lastWithin hne
  rw [hfirst, hlast]
  exact ⟨((r.contains_iff_within v).mp (h v hv)).1, ((r.contains_iff_within w).mp (h w hw)).2⟩

theorem afterFinal_iff (r : Range) : r.toBounds = .afterFinal ↔ ∀ v, ¬ r.contains v := by
  constructor
  · intro h v hv
    rw [contains_iff_holds, h] at hv
    exact Bounds.not_holds_afterFinal v hv
  · intro h
    by_contra hne
    obtain ⟨v, hv, -⟩ := exists_firstWithin hne
    exact h v hv

/-- The same versions lie in two ranges just when these have the same ends among the versions. -/
theorem sameVersions_iff (r s : Range) :
    r.SameVersions s ↔ r.firstWithin = s.firstWithin ∧ r.lastWithin = s.lastWithin := by
  constructor
  · intro h
    by_cases hr : r.toBounds = .afterFinal
    · have hs : s.toBounds = .afterFinal :=
        (afterFinal_iff s).mpr fun v hv => (afterFinal_iff r).mp hr v ((h v).mpr hv)
      rw [firstWithin, firstWithin, lastWithin, lastWithin, hr, hs]
      exact ⟨rfl, rfl⟩
    · have hs : s.toBounds ≠ .afterFinal :=
        fun hs => hr ((afterFinal_iff r).mpr fun v hv => (afterFinal_iff s).mp hs v ((h v).mp hv))
      obtain ⟨hfirst, hlast⟩ := within_le hs fun v => (h v).mpr
      obtain ⟨hfirst', hlast'⟩ := within_le hr fun v => (h v).mp
      exact ⟨le_antisymm hfirst hfirst', le_antisymm hlast' hlast⟩
  · rintro ⟨hfirst, hlast⟩ v
    rw [contains_iff_within, contains_iff_within, hfirst, hlast]

/-- Ranges are equal just when the same versions lie in them and they are bounded on the same sides. The
same versions lie in them just when they have the same ends among the versions, so that ranges of the
same versions differ only where one goes on without end and the other ends with the versions. -/
theorem equals_versions (r s : Range) :
    (r.equals s ↔ r.SameVersions s ∧ (r.lower = none ↔ s.lower = none) ∧
      (r.upper = none ↔ s.upper = none)) ∧
    (r.SameVersions s ↔ r.firstWithin = s.firstWithin ∧ r.lastWithin = s.lastWithin) :=
  ⟨equals_iff_sameVersions r s, sameVersions_iff r s⟩

end Range

end DateSpan
