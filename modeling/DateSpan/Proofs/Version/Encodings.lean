import DateSpan.Proofs.Range.Writing
import DateSpan.Proofs.Spec.Agreement
import DateSpan.Proofs.Version.Moves
import DateSpan.Proofs.Version.Order

/-! Encodings of versions. A version is found again from its text, its slug, its epoch, its moment and its
components; six numbers are components of a version just when they occur in the calendar from 1970 on,
and an epoch within the calendar is that of the second it lies in. -/

namespace DateSpan

open Calendar DateSpan.Expr Text

variable {p : Policy}

/-! ## Texts -/

/-- A written brief is read as that brief. -/
theorem Policy.read_brief (hp : p.Valid) {b : Brief} {s : String} (h : BriefText b s.toList) :
    p.read s = .ok ⟨.brief b, []⟩ := by
  have hwords : Words [.brief b] [s.toList] (s.toList ++ []) [] := .front_cons (.brief h) .nil
  rw [List.append_nil] at hwords
  exact (read_eq_ok_iff hp).mpr
    ⟨_, _, ⟨⟨[], hwords, nofun⟩, .single .brief⟩, hwords.short (by simp)⟩

theorem Calendar.Civil.Valid.compactText {c : Civil} (h : c.Valid) :
    BriefText c.brief c.digits.toList := by
  obtain ⟨hyear, hmonth, hday, hhour, hminute, hsecond⟩ := h.places
  have htext := BriefText.compact (numeral_zeroPadded (by decide) hyear)
    (numeral_zeroPadded (by decide) hmonth) (numeral_zeroPadded (by decide) hday)
    (numeral_zeroPadded (by decide) hhour) (numeral_zeroPadded (by decide) hminute)
    (numeral_zeroPadded (by decide) hsecond)
  simpa [Civil.digits, Civil.brief] using htext

namespace Version

/-- The brief of a version, however it is written, denotes the version. -/
theorem ofText_of_briefText (hp : p.Valid) {v : Version} {s : String}
    (h : BriefText v.civil.brief s.toList) : ofText p s = .ok v := by
  have hvalid : v.civil.brief.Valid := v.civil_valid.brief v.civil_year
  exact (ofText_eq_ok_iff hp).mpr
    ⟨_, Policy.read_brief hp h, hvalid, v.civil.brief_firstCivil.symm⟩

/-! ## Epochs and moments -/

theorem ofEpoch_eq_ok {n : Int} (hpos : 0 ≤ n) (hn : n < 1000 * versionSeconds) :
    ∃ v, ofEpoch n = .ok v ∧ (v.epoch : Int) = n - n % 1000 := by
  have hlimit := milliseconds_lt_floatLimit
  have hseconds : 0 ≤ n / 1000 := Int.ediv_nonneg hpos (by decide)
  obtain ⟨m, hm⟩ := Int.eq_ofNat_of_zero_le hseconds
  have hlt : m < versionSeconds := by omega
  have hversion : ofSeconds? (n / 1000) = some ⟨m, hlt⟩ := ofSeconds?_eq_some.mpr hm
  refine ⟨⟨m, hlt⟩, ?_, ?_⟩
  · rw [ofEpoch, if_neg (by omega), if_neg (by omega), hversion]
  · simp only [epoch]
    omega

theorem ofEpoch_epoch (v : Version) : ofEpoch v.epoch = .ok v := by
  have hepoch : (v.epoch : Int) = 1000 * v.seconds := Int.natCast_mul 1000 v.seconds
  rw [hepoch, ofEpoch_seconds]

theorem shiftMicro_zero (i : Instant) : Moment.shiftMicro ⟨i, 0⟩ (-0) = some ⟨i, 0⟩ := by
  rw [Int.neg_zero]
  simp only [Moment.shiftMicro, Int.natCast_zero, Int.add_zero, Int.zero_ediv, Int.zero_emod,
    i.shiftSeconds_zero, Option.map_some, Int.toNat_zero]

theorem ofClock_of_shiftMicro {m m' : Moment} {offset : Int} (h : m.shiftMicro (-offset) = some m') :
    ofClock m (some offset) = ofMoment m' := by
  simp only [ofClock, h]

/-- A clock that shows UTC shows the moment. -/
theorem ofClock_moment (v : Version) : ofClock v.moment (some 0) = .ok v :=
  (ofClock_of_shiftMicro (shiftMicro_zero v.instant)).trans v.ofMoment_moment

/-! ## Components -/

/-- Six numbers as data. -/
def componentData (fields : Component → Int) : List Datum :=
  Component.all.map fun c => .int (fields c)

/-- The numbers are the components of a reading that occurs from 1970 on. -/
def Occurs (fields : Component → Int) : Prop :=
  ∃ c : Civil, c.Valid ∧ 1970 ≤ c.year ∧ ∀ x, fields x = c.component x

variable {room : Room} {fields : Component → Int} {v : Version}

theorem ofComponents_data (room : Room) (fields : Component → Int) :
    ofComponents room (componentData fields) = ofFields (fields .year) (fields .month) (fields .day)
      (fields .hour) (fields .minute) (fields .second) :=
  ofComponents_ints ..

theorem forall_component_iff {fields : Component → Int} {c : Civil} :
    (∀ x, fields x = c.component x) ↔ fields .year = c.year ∧ fields .month = c.month ∧
      fields .day = c.day ∧ fields .hour = c.hour ∧ fields .minute = c.minute ∧
      fields .second = c.second := by
  constructor
  · intro h
    exact ⟨h .year, h .month, h .day, h .hour, h .minute, h .second⟩
  · rintro ⟨hyear, hmonth, hday, hhour, hminute, hsecond⟩ x
    cases x <;> assumption

theorem ofComponents_eq_ok_iff :
    ofComponents room (componentData fields) = .ok v ↔ ∀ x, fields x = v.civil.component x := by
  rw [ofComponents_data, forall_component_iff]
  constructor
  · exact ofFields_sound
  · rintro ⟨hyear, hmonth, hday, hhour, hminute, hsecond⟩
    rw [hyear, hmonth, hday, hhour, hminute, hsecond, v.ofFields_civil]

theorem exists_ofComponents_iff :
    (∃ v, ofComponents room (componentData fields) = .ok v) ↔ Occurs fields := by
  constructor
  · rintro ⟨v, hv⟩
    exact ⟨v.civil, v.civil_valid, v.civil_year, ofComponents_eq_ok_iff.mp hv⟩
  · rintro ⟨c, hvalid, hyear, hfields⟩
    obtain ⟨v, -, rfl⟩ := ofFields_eq_ok hvalid hyear
    exact ⟨v, ofComponents_eq_ok_iff.mpr hfields⟩

theorem ofComponents_error (hwords : ∀ x, fitsWord (fields x) = true) {f : Fault}
    (h : ofComponents room (componentData fields) = .error f) : f.classOf = .logic := by
  rw [ofComponents_data] at h
  apply ofFields_error _ h
  simp only [List.all_cons, List.all_nil, hwords, Bool.and_self]

theorem componentNamed_name (room : Room) (v : Version) (c : Component) :
    v.componentNamed room (.text c.name) = .ok (v.component c) := by
  rw [componentNamed, Component.ofDatum_name]
  rfl

/-- Each encoding of a version gives the version back. Six numbers that fit their places make a version
just when they occur, it has them as its components, and others are refused; and every epoch within the
calendar makes the version of its second. -/
theorem encodings_agree (hp : p.Valid) (room : Room) :
    (∀ v : Version, ofDatum p (.text v.text) = .ok v ∧ ofDatum p (.text v.slug) = .ok v ∧
      ofDatum p (.int v.epoch) = .ok v ∧ ofDatum p (.datetime v.moment (some 0)) = .ok v ∧
      ofComponents room (componentData fun c => v.component c) = .ok v) ∧
    (∀ fields, (∀ c, fitsWord (fields c) = true) →
      ((∃ v, ofComponents room (componentData fields) = .ok v) ↔ Occurs fields) ∧
      (∀ v, ofComponents room (componentData fields) = .ok v →
        ∀ c, ∃ n, v.componentNamed room (.text c.name) = .ok n ∧ n = fields c) ∧
      ∀ f, ofComponents room (componentData fields) = .error f → f.classOf = .logic) ∧
    ∀ n : Int, 0 ≤ n → n < 253402300800000 →
      ∃ v, ofDatum p (.int n) = .ok v ∧ (v.epoch : Int) = n - n % 1000 := by
  refine ⟨fun v => ⟨?_, ?_, v.ofEpoch_epoch, v.ofClock_moment, ?_⟩, fun fields hwords => ⟨?_, ?_, ?_⟩,
    ?_⟩
  · exact ofText_of_briefText hp v.briefText
  · exact ofText_of_briefText hp v.civil_valid.compactText
  · exact ofComponents_eq_ok_iff.mpr fun x => rfl
  · exact exists_ofComponents_iff
  · intro v hv c
    exact ⟨_, componentNamed_name room v c, (ofComponents_eq_ok_iff.mp hv c).symm⟩
  · intro f hf
    exact ofComponents_error hwords hf
  · intro n hpos hn
    exact ofEpoch_eq_ok hpos hn

/-- The leap day of a year that ends a century. -/
theorem encodings_agree_leap_day :
    Policy.plain.Valid ∧ Occurs (fun c => Civil.component ⟨2000, 2, 29, 0, 0, 0⟩ c) ∧
      ∃ v, ofComponents (.ample 0) (componentData fun c => Civil.component ⟨2000, 2, 29, 0, 0, 0⟩ c) = .ok v ∧
        ofDatum .plain (.text v.slug) = .ok v ∧ ofDatum .plain (.text v.text) = .ok v := by
  obtain ⟨hback, hfields, -⟩ := encodings_agree Policy.plain_valid (.ample 0)
  have hoccurs : Occurs (fun c => Civil.component ⟨2000, 2, 29, 0, 0, 0⟩ c) :=
    ⟨_, by constructor <;> decide, by decide, fun _ => rfl⟩
  obtain ⟨v, hv⟩ := (hfields _ fun c => by cases c <;> decide).1.mpr hoccurs
  obtain ⟨htext, hslug, -⟩ := hback v
  exact ⟨Policy.plain_valid, hoccurs, v, hv, hslug, htext⟩

end Version

end DateSpan
