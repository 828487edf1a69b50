import DateSpan.Proofs.Range.Members
import DateSpan.Proofs.Version.Order
import Mathlib.Data.Set.Card
import Mathlib.Order.Interval.Finset.Nat

/-! Ranges between two ends. Such a range holds the versions from its first to its last one, as many as it
counts. -/

namespace DateSpan

namespace Version

/-- Every second between those of two versions is that of a version between them. -/
theorem image_seconds_Icc (v w : Version) :
    Version.seconds '' Set.Icc v w = Set.Icc v.seconds w.seconds := by
  ext n
  constructor
  · rintro ⟨x, hx, rfl⟩
    exact hx
  · rintro ⟨hv, hw⟩
    exact ⟨⟨n, Nat.lt_of_le_of_lt hw w.inCalendar⟩, ⟨hv, hw⟩, rfl⟩

theorem seconds_injective : Function.Injective Version.seconds := fun _ _ => eq_of_seconds

theorem ncard_Icc (v w : Version) : (Set.Icc v w).ncard = w.seconds + 1 - v.seconds := by
  rw [← Set.ncard_image_of_injective _ seconds_injective, image_seconds_Icc,
    Set.ncard_eq_toFinset_card', Set.toFinset_Icc, Nat.card_Icc]

theorem finite_Icc (v w : Version) : (Set.Icc v w).Finite := by
  apply Set.Finite.of_finite_image _ seconds_injective.injOn
  rw [image_seconds_Icc]
  exact Set.finite_Icc v.seconds w.seconds

end Version

namespace Range

variable {r : Range}

/-- The versions in a range. -/
def versions (r : Range) : Set Version := {v | r.contains v}

section Ends

variable {first last : Version} (hfirst : r.first = .second first.seconds)
  (hlast : r.last = .second last.seconds)

include hfirst hlast

theorem first_le_last_of_ends : first ≤ last := by
  have hle := r.first_le_last
  rw [hfirst, hlast] at hle
  exact Int.ofNat_le.mp ((Limit.second_le_second _ _).mp hle)

theorem versions_eq_Icc : r.versions = Set.Icc first last := by
  ext v
  have hv := Limit.second_le_second first.seconds v.seconds
  have hv' := Limit.second_le_second v.seconds last.seconds
  rw [versions, Set.mem_ofPred_eq, contains_iff, hfirst, hlast]
  exact and_congr (hv.trans Int.ofNat_le) (hv'.trans Int.ofNat_le)

theorem count?_of_ends : r.count? = some (r.versions.ncard : Int) := by
  have hle : first.seconds ≤ last.seconds := first_le_last_of_ends hfirst hlast
  rw [versions_eq_Icc hfirst hlast, Version.ncard_Icc]
  simp only [count?, hfirst, hlast, Option.some.injEq]
  omega

theorem isSingular_iff_of_ends : r.isSingular ↔ ∃! v, v ∈ r.versions := by
  have hle := first_le_last_of_ends hfirst hlast
  have hsingular : r.isSingular ↔ first = last := by
    rw [isSingular, hfirst, hlast, beq_iff_eq, Limit.second.injEq, Int.ofNat_inj]
    exact ⟨Version.eq_of_seconds, congrArg Version.seconds⟩
  rw [hsingular, versions_eq_Icc hfirst hlast]
  constructor
  · rintro rfl
    exact ⟨first, Set.left_mem_Icc.mpr le_rfl, fun v hv => le_antisymm hv.2 hv.1⟩
  · rintro ⟨v, -, honly⟩
    rw [honly first (Set.left_mem_Icc.mpr hle), honly last (Set.right_mem_Icc.mpr hle)]

end Ends

/-- A range with two ends starts and ends with a version. -/
theorem exists_ends (hlower : r.lower ≠ none) (hupper : r.upper ≠ none) :
    ∃ first last : Version, r.first = .second first.seconds ∧ r.last = .second last.seconds := by
  have hne : r.toBounds ≠ .afterFinal := fun h => hupper (congrArg Bounds.upper h)
  obtain ⟨first, hfirst, -⟩ := Bounds.holds_first r.first_le_last hne hlower
  obtain ⟨last, hlast, -⟩ := Bounds.holds_last r.first_le_last r.zero_le_last hupper
  exact ⟨first, last, hfirst, hlast⟩

/-- A range with two ends counts the different versions that it holds, of which its first version is the
least and its last version the greatest, and it is singular just when it holds exactly one. -/
theorem versions_counted (hlower : r.lower ≠ none) (hupper : r.upper ≠ none) :
    r.versions.Finite ∧ r.count? = some (r.versions.ncard : Int) ∧
    (∃ v, r.firstVersion = .ok (some v) ∧ IsLeast r.versions v) ∧
    (∃ v, r.lastVersion = .ok (some v) ∧ IsGreatest r.versions v) ∧
    (r.isSingular ↔ ∃! v, v ∈ r.versions) := by
  obtain ⟨first, last, hfirst, hlast⟩ := exists_ends hlower hupper
  have hle := first_le_last_of_ends hfirst hlast
  have hversions := versions_eq_Icc hfirst hlast
  refine ⟨?_, count?_of_ends hfirst hlast, ⟨first, ?_, ?_⟩, ⟨last, ?_, ?_⟩,
    isSingular_iff_of_ends hfirst hlast⟩
  · rw [hversions]
    exact Version.finite_Icc first last
  · rw [firstVersion, hfirst, edgeVersion_seconds]
  · rw [hversions]
    exact isLeast_Icc hle
  · rw [lastVersion, hlast, edgeVersion_seconds]
  · rw [hversions]
    exact isGreatest_Icc hle

/-- From after the first second to before the third there is one version, though both anchors are open. -/
theorem versions_counted_open :
    ∃ r : Range, r.lower = some ⟨⟨0, by decide⟩, true⟩ ∧ r.upper = some ⟨⟨2, by decide⟩, true⟩ ∧
      r.count? = some (r.versions.ncard : Int) ∧ r.count? = some 1 ∧ r.isSingular ∧
      ∃! v, v ∈ r.versions := by
  let r : Range :=
    ⟨⟨some ⟨⟨0, by decide⟩, true⟩, some ⟨⟨2, by decide⟩, true⟩⟩, rfl, by decide, by decide⟩
  have hsingular : r.isSingular := by decide
  obtain ⟨-, hcount, -, -, hone⟩ := versions_counted (r := r) nofun nofun
  exact ⟨r, rfl, rfl, hcount, by decide, hsingular, hone.mp hsingular⟩

end Range

end DateSpan
