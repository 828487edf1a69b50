import DateSpan.Proofs.Calendar.Reading
import DateSpan.Version.Arithmetic

/-! Versions and their readings: a reading that occurs from 1970 on is that of one version, and
versions are ordered as their components are. -/

namespace DateSpan

open Calendar

/-- The reading of the first version. -/
def epochCivil : Civil := ⟨1970, 1, 1, 0, 0, 0⟩

theorem epochCivil_valid : epochCivil.Valid := by
  constructor <;> decide

theorem epochCivil_seconds : epochCivil.seconds = epochStart := rfl

/-- A reading is not before the first version if and only if its year is not. -/
theorem Calendar.Civil.Valid.epochStart_le_iff {c : Civil} (h : c.Valid) :
    epochStart ≤ c.seconds ↔ 1970 ≤ c.year := by
  have hm := h.month
  have hd := h.day
  rw [← epochCivil_seconds, ← Nat.not_lt, Civil.seconds_lt_iff h epochCivil_valid,
    Civil.components_lt_iff]
  simp only [epochCivil]
  omega

namespace Version

theorem eq_of_seconds {v w : Version} (h : v.seconds = w.seconds) : v = w := by
  cases v
  cases w
  simpa using h

theorem civil_valid (v : Version) : v.civil.Valid :=
  (Civil.ofSeconds_spec v.instant.inCalendar).1

theorem civil_seconds (v : Version) : v.civil.seconds = v.seconds + epochStart :=
  (Civil.ofSeconds_spec v.instant.inCalendar).2

theorem civil_year (v : Version) : 1970 ≤ v.civil.year := by
  rw [← v.civil_valid.epochStart_le_iff, civil_seconds]
  exact Nat.le_add_left _ _

theorem eq_of_civil {v w : Version} (h : v.civil = w.civil) : v = w := by
  have hv := v.civil_seconds
  have hw := w.civil_seconds
  rw [h] at hv
  exact eq_of_seconds (by omega)

theorem seconds_lt_iff (v w : Version) :
    v.seconds < w.seconds ↔ v.civil.components < w.civil.components := by
  rw [← Civil.seconds_lt_iff v.civil_valid w.civil_valid, civil_seconds, civil_seconds]
  omega

theorem seconds_eq_zero_iff (v : Version) : v.seconds = 0 ↔ v.civil = epochCivil := by
  have hv := v.civil_seconds
  constructor
  · intro h
    rw [h, Nat.zero_add, ← epochCivil_seconds] at hv
    rw [← Civil.ofSeconds_seconds v.civil_valid, hv, Civil.ofSeconds_seconds epochCivil_valid]
  · intro h
    rw [h, epochCivil_seconds] at hv
    omega

theorem ofSeconds?_eq_some {n : Int} {v : Version} : ofSeconds? n = some v ↔ n = v.seconds := by
  unfold ofSeconds?
  have hv := v.inCalendar
  split
  · rename_i h
    rw [Option.some.injEq]
    constructor
    · rintro rfl
      exact (Int.toNat_of_nonneg h.1).symm
    · rintro rfl
      exact eq_of_seconds (Int.toNat_natCast _)
  · rename_i h
    refine ⟨fun hn => (Option.some_ne_none v hn.symm).elim, fun hn => (h ?_).elim⟩
    omega

theorem ofMoment_eq_ok {i : Instant} {micro : Nat} {v : Version}
    (h : i.seconds = v.seconds + epochStart) : ofMoment ⟨i, micro⟩ = .ok v := by
  have hv : ofInstant? i = some v := by
    rw [ofInstant?, ofSeconds?_eq_some]
    omega
  simp only [ofMoment, hv]

theorem fitsWord_natCast {n : Nat} (h : n ≤ 9999) : fitsWord n = true := by
  simp only [fitsWord, Bool.and_eq_true, decide_eq_true_eq]
  omega

/-- Fields that occur, from 1970 on, make the version with that reading. -/
theorem ofFields_eq_ok {c : Civil} (h : c.Valid) (hy : 1970 ≤ c.year) :
    ∃ v, ofFields c.year c.month c.day c.hour c.minute c.second = .ok v ∧ v.civil = c := by
  have hyear := h.year
  have hmonth := h.month
  have hday := h.day
  have hdays : daysInMonth c.year c.month ≤ 31 := daysInMonth_le _ _
  have hhour := h.hour
  have hminute := h.minute
  have hsecond := h.second
  have hwords :
      [(c.year : Int), c.month, c.day, c.hour, c.minute, c.second].all fitsWord = true := by
    simp only [List.all_cons, List.all_nil, Bool.and_true, Bool.and_eq_true]
    refine ⟨?_, ?_, ?_, ?_, ?_, ?_⟩ <;> exact fitsWord_natCast (by omega)
  have hcivil : Civil.ofFields c.year c.month c.day c.hour c.minute c.second = .ok c :=
    Civil.ofFields_eq_ok h
  have hinstant : Instant.ofSeconds? c.seconds = some ⟨c.seconds, h.seconds_lt⟩ := by
    simp [Instant.ofSeconds?, h.seconds_lt]
  have hepoch : epochStart ≤ c.seconds := h.epochStart_le_iff.mpr hy
  have hlast := h.seconds_lt
  have hspan : calendarSeconds = versionSeconds + epochStart := rfl
  refine ⟨⟨c.seconds - epochStart, by omega⟩, ?_, ?_⟩
  · simp only [ofFields, ofFieldsShown, hwords, hcivil, hinstant, if_true]
    exact ofMoment_eq_ok (Nat.sub_add_cancel hepoch).symm
  · change Civil.ofSeconds (c.seconds - epochStart + epochStart) = c
    rw [Nat.sub_add_cancel hepoch, Civil.ofSeconds_seconds h]

/-- A version is made of the fields of its reading. -/
theorem ofFields_civil (v : Version) :
    ofFields v.civil.year v.civil.month v.civil.day v.civil.hour v.civil.minute v.civil.second =
      .ok v := by
  obtain ⟨w, hw, hc⟩ := ofFields_eq_ok v.civil_valid v.civil_year
  rw [hw, eq_of_civil hc]

end Version

end DateSpan
