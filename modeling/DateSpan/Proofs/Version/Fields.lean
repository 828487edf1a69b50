import DateSpan.Proofs.Calendar.Months
import DateSpan.Proofs.Version.Faults

/-! Versions and their fields. Six numbers make a version just when they are the fields of one, and then
it is the version that they make. -/

namespace DateSpan

open Calendar

theorem Calendar.Civil.eq_of_fields {a b : Civil}
    (h : (a.year : Int) = b.year ∧ (a.month : Int) = b.month ∧ (a.day : Int) = b.day ∧
      (a.hour : Int) = b.hour ∧ (a.minute : Int) = b.minute ∧ (a.second : Int) = b.second) :
    a = b := by
  cases a
  cases b
  simpa only [Int.natCast_inj, mk.injEq] using h

theorem Calendar.Civil.ofFields_sound {year month day hour minute second : Int} {c : Civil}
    (h : ofFields year month day hour minute second = .ok c) :
    c.Valid ∧ year = c.year ∧ month = c.month ∧ day = c.day ∧ hour = c.hour ∧ minute = c.minute ∧
      second = c.second := by
  unfold ofFields at h
  split_ifs at h
  cases h
  refine ⟨?_, ?_, ?_, ?_, ?_, ?_, ?_⟩
  · constructor <;> simp only <;> omega
  all_goals (simp only; omega)

namespace Version

/-! ## Moments -/

theorem ofMoment_eq_ok_iff {m : Moment} {v : Version} :
    ofMoment m = .ok v ↔ m.instant.seconds = v.seconds + epochStart := by
  constructor
  · intro h
    unfold ofMoment at h
    split at h
    · rename_i w hw
      cases h
      rw [ofInstant?, ofSeconds?_eq_some] at hw
      omega
    · cases h
  · intro h
    exact ofMoment_eq_ok h

theorem exists_ofMoment {m : Moment} (h : epochStart ≤ m.instant.seconds) :
    ∃ v, ofMoment m = .ok v := by
  have hspan : calendarSeconds = versionSeconds + epochStart := rfl
  have hin := m.instant.inCalendar
  exact ⟨⟨m.instant.seconds - epochStart, by omega⟩,
    ofMoment_eq_ok_iff.mpr (Nat.sub_add_cancel h).symm⟩

/-! ## Fields -/

variable {year month day hour minute second : Int} {v : Version} {f : Fault}

theorem ofFields_sound (h : ofFields year month day hour minute second = .ok v) :
    year = v.civil.year ∧ month = v.civil.month ∧ day = v.civil.day ∧ hour = v.civil.hour ∧
      minute = v.civil.minute ∧ second = v.civil.second := by
  unfold ofFields ofFieldsShown at h
  split at h
  · split at h
    · cases h
    · rename_i c hc
      obtain ⟨hvalid, hfields⟩ := Civil.ofFields_sound hc
      split at h
      · rename_i i hi
        have hinstant := Instant.ofSeconds?_eq_some.mp hi
        have hmoment : i.seconds = v.seconds + epochStart := ofMoment_eq_ok_iff.mp h
        have hcivil : v.civil = c := by
          rw [← Civil.ofSeconds_seconds hvalid, ← Civil.ofSeconds_seconds v.civil_valid,
            v.civil_seconds]
          congr 1
          omega
        rw [hcivil]
        exact hfields
      · cases h
  · cases h

/-- Fields that fit their places fail only for what they say. -/
theorem ofFields_error (hwords : [year, month, day, hour, minute, second].all fitsWord = true)
    (h : ofFields year month day hour minute second = .error f) : f.classOf = .logic := by
  unfold ofFields ofFieldsShown at h
  rw [if_pos hwords] at h
  split at h
  · cases h
    rfl
  · rename_i c hc
    obtain ⟨hvalid, -⟩ := Civil.ofFields_sound hc
    split at h
    · exact ofMoment_error h
    · rename_i hnone
      have hsome : Instant.ofSeconds? c.seconds = some ⟨c.seconds, hvalid.seconds_lt⟩ :=
        Instant.ofSeconds?_eq_some.mpr rfl
      cases hsome.symm.trans hnone

theorem mapM_fieldNumber (room : Room) (given : List Datum) (numbers : List Int) :
    (numbers.map Datum.int).mapM (fieldNumber room given) =
      if numbers.all fitsWord then .ok numbers else .error .tooLarge := by
  induction numbers with
  | nil => rfl
  | cons n numbers ih =>
    rw [List.map_cons, List.mapM_cons, ih, List.all_cons, fieldNumber]
    cases fitsWord n with
    | false => rfl
    | true =>
      simp only [if_true, Bool.true_and]
      split <;> rfl

/-- Whole numbers are the fields that they give. -/
theorem ofComponents_ints (room : Room) (year month day hour minute second : Int) :
    ofComponents room ([year, month, day, hour, minute, second].map Datum.int) =
      ofFields year month day hour minute second := by
  have hnumbers := mapM_fieldNumber room ([year, month, day, hour, minute, second].map Datum.int)
    [year, month, day, hour, minute, second]
  simp only [List.map_cons, List.map_nil] at hnumbers ⊢
  simp only [ofComponents, fieldDefaults, Component.all, List.length_cons, List.length_nil,
    List.drop_succ_cons, List.drop_nil, List.append_nil, ne_eq, not_true_eq_false, if_false, hnumbers]
  split
  · rfl
  · rename_i hwords
    rw [ofFields, ofFieldsShown, if_neg hwords]
    rfl

end Version

end DateSpan
