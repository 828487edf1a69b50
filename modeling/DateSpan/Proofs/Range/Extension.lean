import DateSpan.Proofs.Expr.Modes

/-! Ranges that durations extend. A duration moves one end of its brief outwards and leaves the other,
and of two durations the longer moves it no less. -/

namespace DateSpan

open Calendar DateSpan.Expr

namespace Range

/-! ## Seconds that a range spans -/

/-- The range starts at the second `m` and ends at the second `n`. -/
structure Spans (r : Range) (m n : Nat) : Prop where
  first : r.first = .second m
  last : r.last = .second n

variable {r s : Range} {m n m' n' : Nat}

theorem exists_spans {l u : Anchor} (hl : l.lowerSecond = m) (hu : u.upperSecond = n) (hle : m ≤ n) :
    ∃ r, ofBounds ⟨some l, some u⟩ = .ok r ∧ r.Spans m n := by
  have hfirst : Bounds.first ⟨some l, some u⟩ = .second m := congrArg Limit.second hl
  have hlast : Bounds.last ⟨some l, some u⟩ = .second n := congrArg Limit.second hu
  have hordered : Bounds.reversed? ⟨some l, some u⟩ = none := by
    refine if_neg (Nat.not_lt.mpr ?_)
    have hgap : 0 ≤ l.gap ∧ 0 ≤ u.gap := by
      unfold Anchor.gap
      constructor <;> split <;> decide
    unfold Anchor.lowerSecond at hl
    unfold Anchor.upperSecond at hu
    omega
  have hinhabited : Bounds.isHollow ⟨some l, some u⟩ = false := by
    rw [Bounds.isHollow_eq_false_iff, hfirst, hlast]
    exact ⟨(Limit.second_le_second _ _).mpr (Int.ofNat_le.mpr hle),
      (Limit.second_le_second _ _).mpr (Int.natCast_nonneg n)⟩
  exact ⟨_, ofBounds_eq_ok rfl hordered hinhabited, hfirst, hlast⟩

theorem Spans.includes_iff (hr : r.Spans m n) (hs : s.Spans m' n') :
    r.includes s ↔ m ≤ m' ∧ n' ≤ n := by
  rw [Range.includes_iff, hr.first, hr.last, hs.first, hs.last]
  exact and_congr ((Limit.second_le_second _ _).trans Int.ofNat_le)
    ((Limit.second_le_second _ _).trans Int.ofNat_le)

theorem Spans.contains_iff (hr : r.Spans m n) (v : Version) :
    r.contains v ↔ m ≤ v.seconds ∧ v.seconds ≤ n := by
  rw [Range.contains_iff, hr.first, hr.last]
  exact and_congr ((Limit.second_le_second _ _).trans Int.ofNat_le)
    ((Limit.second_le_second _ _).trans Int.ofNat_le)

theorem Spans.equals (hr : r.Spans m n) (hs : s.Spans m n) : r.equals s :=
  (equals_iff r s).mpr ⟨hr.first.trans hs.first.symm, hr.last.trans hs.last.symm⟩

theorem Spans.firstVersion {v : Version} (hr : r.Spans v.seconds n) :
    r.firstVersion = .ok (some v) := by
  rw [Range.firstVersion, hr.first, edgeVersion_seconds]

theorem Spans.lastVersion {v : Version} (hr : r.Spans m v.seconds) :
    r.lastVersion = .ok (some v) := by
  rw [Range.lastVersion, hr.last, edgeVersion_seconds]

/-- A range that reaches further at one end holds a version that the other lacks. -/
theorem Spans.exists_outside (hr : r.Spans m n) (hs : s.Spans m' n') (h : m' < m ∨ n < n') :
    ∃ v, s.contains v ∧ ¬ r.contains v := by
  have hle := s.first_le_last
  rw [hs.first, hs.last] at hle
  have hin : m' ≤ n' := Int.ofNat_le.mp ((Limit.second_le_second _ _).mp hle)
  have hlast : n' < versionSeconds := Int.ofNat_lt.mp (Bounds.last_lt hs.last)
  rcases h with h | h
  · refine ⟨⟨m', by omega⟩, (hs.contains_iff _).mpr ⟨Nat.le_refl _, hin⟩, fun hv => ?_⟩
    exact Nat.not_le.mpr h ((hr.contains_iff _).mp hv).1
  · refine ⟨⟨n', hlast⟩, (hs.contains_iff _).mpr ⟨hin, Nat.le_refl _⟩, fun hv => ?_⟩
    exact Nat.not_le.mpr h ((hr.contains_iff _).mp hv).2

/-! ## Ranges of values -/

/-- The range that a value denotes in a mode of resolution. -/
def resolved (p : Policy) (minimum : Bool) (v : Value) : Except Fault Range := do
  ofBounds (← (v.resolve minimum).under p.resolving)

theorem resolved_false (p : Policy) (v : Value) : resolved p false v = ofValue p v := rfl

/-- The end of a range from which a duration at the other side does not move it. -/
def fixedVersion (side : Side) (r : Range) : Except Fault (Option Version) :=
  match side with
  | .after => r.firstVersion
  | .before => r.lastVersion

end Range

/-- The reading at the end of a brief that a duration at the other side does not move. -/
def Expr.Brief.fixedCivil (side : Side) (b : Brief) : Civil :=
  match side with
  | .after => b.firstCivil
  | .before => b.lastCivil

namespace Range

/-- A brief and what two durations make of it, the second no shorter than the first. -/
structure Nested (b : Brief) (side : Side) (d d' : Duration) (own shorter longer : Range) : Prop where
  covers : ∀ v, own.contains v ↔ b.Covers v
  within : shorter.includes own
  beyond : longer.includes shorter
  fixed : ∃ v : Version, v.civil = b.fixedCivil side ∧ own.fixedVersion side = .ok (some v) ∧
    shorter.fixedVersion side = .ok (some v) ∧ longer.fixedVersion side = .ok (some v)
  equal : d = .zero → shorter.equals own
  larger : d' ≠ .zero → ∃ v, longer.contains v ∧ ¬ own.contains v
  distinct : d ≠ d' → ∃ v, longer.contains v ∧ ¬ shorter.contains v

section

variable {b : Brief} {first last w w' : Version} {d d' : Duration} {own shorter longer : Range}
  (hfirst : first.civil = b.firstCivil) (hlast : last.civil = b.lastCivil)
  (hown : own.Spans first.seconds last.seconds) (hle : d.AtMost d')

include hfirst hlast hown hle

theorem nested_after (hw : last.addDuration d = .ok w) (hw' : last.addDuration d' = .ok w')
    (hshorter : shorter.Spans first.seconds w.seconds)
    (hlonger : longer.Spans first.seconds w'.seconds) :
    Nested b .after d d' own shorter longer := by
  obtain ⟨_, hmove, hstart, hend, hsame⟩ := Version.addDuration_between hle hw'
  cases hw.symm.trans hmove
  obtain ⟨_, hstay, -, -, hzero⟩ := Version.addDuration_between d'.zero_atMost hw'
  cases last.addDuration_zero.symm.trans hstay
  refine ⟨?_, ?_, ?_, ?_, ?_, ?_, ?_⟩
  · intro v
    rw [hown.contains_iff, Brief.covers_iff hfirst hlast]
  · exact (hshorter.includes_iff hown).mpr ⟨Nat.le_refl _, hstart⟩
  · exact (hlonger.includes_iff hshorter).mpr ⟨Nat.le_refl _, hend⟩
  · exact ⟨first, hfirst, hown.firstVersion, hshorter.firstVersion, hlonger.firstVersion⟩
  · rintro rfl
    cases last.addDuration_zero.symm.trans hw
    exact hshorter.equals hown
  · intro hne
    apply hown.exists_outside hlonger
    have hsecond := mt Version.eq_of_seconds (mt hzero hne.symm)
    exact .inr (by omega)
  · intro hne
    apply hshorter.exists_outside hlonger
    have hsecond := mt Version.eq_of_seconds (mt hsame hne)
    exact .inr (by omega)

theorem nested_before (hw : first.minusDuration d = .ok w) (hw' : first.minusDuration d' = .ok w')
    (hshorter : shorter.Spans w.seconds last.seconds)
    (hlonger : longer.Spans w'.seconds last.seconds) :
    Nested b .before d d' own shorter longer := by
  obtain ⟨_, hmove, hstart, hend, hsame⟩ := Version.minusDuration_between hle hw'
  cases hw.symm.trans hmove
  obtain ⟨_, hstay, -, -, hzero⟩ := Version.minusDuration_between d'.zero_atMost hw'
  cases first.minusDuration_zero.symm.trans hstay
  refine ⟨?_, ?_, ?_, ?_, ?_, ?_, ?_⟩
  · intro v
    rw [hown.contains_iff, Brief.covers_iff hfirst hlast]
  · exact (hshorter.includes_iff hown).mpr ⟨hstart, Nat.le_refl _⟩
  · exact (hlonger.includes_iff hshorter).mpr ⟨hend, Nat.le_refl _⟩
  · exact ⟨last, hlast, hown.lastVersion, hshorter.lastVersion, hlonger.lastVersion⟩
  · rintro rfl
    cases first.minusDuration_zero.symm.trans hw
    exact hshorter.equals hown
  · intro hne
    apply hown.exists_outside hlonger
    have hsecond := mt Version.eq_of_seconds (mt hzero hne.symm)
    exact .inl (by omega)
  · intro hne
    apply hshorter.exists_outside hlonger
    have hsecond := mt Version.eq_of_seconds (mt hsame hne)
    exact .inl (by omega)

end

/-! ## Values -/

variable {p : Policy} {minimum : Bool}

/-- A value whose bounds span seconds in order denotes their range. -/
theorem exists_resolved {v : Value} {l u : Anchor} {m n : Nat} (hswitch : ∃ w, p.resolving = .ok w)
    (hv : (v.resolve minimum).outcome = .ok ⟨some l, some u⟩) (hl : l.lowerSecond = m)
    (hu : u.upperSecond = n) (hle : m ≤ n) : ∃ r, resolved p minimum v = .ok r ∧ r.Spans m n := by
  obtain ⟨r, hr, hspans⟩ := exists_spans hl hu hle
  refine ⟨r, ?_, hspans⟩
  rw [resolved, (Traced.under_eq_ok_iff (v.noted_resolve minimum)).mpr ⟨hswitch, hv⟩]
  exact hr

section

variable {b : Brief} {ends : Anchor × Anchor} {first last w : Version} {a : Amounts}
  (hswitch : ∃ w, p.resolving = .ok w) (hends : b.ends minimum = .ok ends)
  (hlower : ends.1 = .closed first) (hupper : ends.2.upperSecond = last.seconds)
  (hspan : first.seconds ≤ last.seconds)

include hswitch hends hlower hupper hspan

theorem exists_own : ∃ r, resolved p minimum (.brief b) = .ok r ∧ r.Spans first.seconds last.seconds := by
  have hv : (Value.resolve minimum (.brief b)).outcome = .ok ⟨some ends.1, some ends.2⟩ :=
    Brief.resolve_outcome hends
  refine exists_resolved hswitch hv ?_ hupper hspan
  rw [hlower, Anchor.lowerSecond_closed]

theorem exists_after (hw : last.addDuration (.ofAmounts a) = .ok w) :
    ∃ r, resolved p minimum (.relative b .after a) = .ok r ∧ r.Spans first.seconds w.seconds := by
  have hv : (Value.resolve minimum (.relative b .after a)).outcome =
      .ok ⟨some ends.1, some (.closed w)⟩ :=
    Brief.resolve_bind_eq_ok_iff.mpr ⟨ends, hends, relativeRule_after_eq_ok_iff.mpr
      ⟨ends.2, last, w, rfl, hupper.symm, hw, rfl⟩⟩
  refine exists_resolved hswitch hv ?_ (Anchor.upperSecond_closed w)
    (Nat.le_trans hspan (Version.le_of_addDuration hw))
  rw [hlower, Anchor.lowerSecond_closed]

theorem exists_before (hw : first.minusDuration (.ofAmounts a) = .ok w) :
    ∃ r, resolved p minimum (.relative b .before a) = .ok r ∧ r.Spans w.seconds last.seconds := by
  have hstart : (first.seconds : Int) = ends.1.lowerSecond := by
    rw [hlower, Anchor.lowerSecond_closed]
  have hv : (Value.resolve minimum (.relative b .before a)).outcome =
      .ok ⟨some (.closed w), some ends.2⟩ :=
    Brief.resolve_bind_eq_ok_iff.mpr ⟨ends, hends, relativeRule_before_eq_ok_iff.mpr
      ⟨ends.1, first, w, rfl, hstart, hw, rfl⟩⟩
  exact exists_resolved hswitch hv (Anchor.lowerSecond_closed w) hupper
    (Nat.le_trans (Version.le_of_minusDuration hw) hspan)

end

/-- With the longer duration the brief makes a range, hence with the shorter one, and the ranges are
one within the other. -/
theorem relative_nested (p : Policy) (minimum : Bool) (b : Brief) (side : Side) :
    (∀ a own, Duration.ofAmounts a = .zero → resolved p minimum (.brief b) = .ok own →
      ∃ r, resolved p minimum (.relative b side a) = .ok r ∧ r.equals own) ∧
    ∀ a a' bounds, (Duration.ofAmounts a).AtMost (.ofAmounts a') →
      ((Value.relative b side a').resolve minimum).under p.resolving = .ok bounds →
      ∃ own shorter longer, resolved p minimum (.brief b) = .ok own ∧
        resolved p minimum (.relative b side a) = .ok shorter ∧
        resolved p minimum (.relative b side a') = .ok longer ∧
        Nested b side (.ofAmounts a) (.ofAmounts a') own shorter longer := by
  constructor
  · intro a own hzero hown
    obtain ⟨bounds, hbounds, -⟩ := bind_eq_ok hown
    obtain ⟨hswitch, houtcome⟩ := (Traced.under_eq_ok_iff (Value.noted_resolve _ _)).mp hbounds
    obtain ⟨ends, hends, -⟩ := Brief.resolve_eq_ok_iff.mp houtcome
    obtain ⟨first, last, -, hfirst, hlast, hlower, hupper, -⟩ := Brief.ends_spec hends
    have hspan := Brief.seconds_le hfirst hlast
    obtain ⟨_, hown', hspans⟩ := exists_own hswitch hends hlower hupper hspan
    cases hown.symm.trans hown'
    cases side with
    | after =>
      have hw := last.addDuration_zero
      rw [← hzero] at hw
      obtain ⟨r, hr, hspans'⟩ := exists_after hswitch hends hlower hupper hspan hw
      exact ⟨r, hr, hspans'.equals hspans⟩
    | before =>
      have hw := first.minusDuration_zero
      rw [← hzero] at hw
      obtain ⟨r, hr, hspans'⟩ := exists_before hswitch hends hlower hupper hspan hw
      exact ⟨r, hr, hspans'.equals hspans⟩
  · intro a a' bounds hle hbounds
    obtain ⟨hswitch, houtcome⟩ := (Traced.under_eq_ok_iff (Value.noted_resolve _ _)).mp hbounds
    obtain ⟨ends, hends, hrule⟩ := Brief.resolve_bind_eq_ok_iff.mp houtcome
    obtain ⟨first, last, -, hfirst, hlast, hlower, hupper, -⟩ := Brief.ends_spec hends
    have hspan := Brief.seconds_le hfirst hlast
    obtain ⟨own, hown, hspans⟩ := exists_own hswitch hends hlower hupper hspan
    cases side with
    | after =>
      obtain ⟨_, start, w', hedge, hstart, hw', -⟩ := relativeRule_after_eq_ok_iff.mp hrule
      cases hedge
      obtain rfl : start = last := Version.eq_of_seconds (by omega)
      obtain ⟨w, hw, -⟩ := Version.addDuration_between hle hw'
      obtain ⟨shorter, hshorter, hshort⟩ := exists_after hswitch hends hlower hupper hspan hw
      obtain ⟨longer, hlonger, hlong⟩ := exists_after hswitch hends hlower hupper hspan hw'
      exact ⟨own, shorter, longer, hown, hshorter, hlonger,
        nested_after hfirst hlast hspans hle hw hw' hshort hlong⟩
    | before =>
      obtain ⟨_, start, w', hedge, hstart, hw', -⟩ := relativeRule_before_eq_ok_iff.mp hrule
      cases hedge
      rw [hlower, Anchor.lowerSecond_closed] at hstart
      obtain rfl : start = first := Version.eq_of_seconds (by omega)
      obtain ⟨w, hw, -⟩ := Version.minusDuration_between hle hw'
      obtain ⟨shorter, hshorter, hshort⟩ := exists_before hswitch hends hlower hupper hspan hw
      obtain ⟨longer, hlonger, hlong⟩ := exists_before hswitch hends hlower hupper hspan hw'
      exact ⟨own, shorter, longer, hown, hshorter, hlonger,
        nested_before hfirst hlast hspans hle hw hw' hshort hlong⟩

/-- A month after the last day of January, and a year and a month after it. -/
theorem relative_nested_january :
    ∃ own shorter longer, ofValue .plain (.brief (.day 2020 1 31)) = .ok own ∧
      ofValue .plain (.relative (.day 2020 1 31) .after ⟨none, some 1, none, none, none, none⟩) =
        .ok shorter ∧
      ofValue .plain (.relative (.day 2020 1 31) .after ⟨some 1, some 1, none, none, none, none⟩) =
        .ok longer ∧
      Nested (.day 2020 1 31) .after ⟨0, 1, 0, 0, 0, 0⟩ ⟨1, 1, 0, 0, 0, 0⟩ own shorter longer := by
  obtain ⟨bounds, hbounds⟩ : ∃ bounds,
      ((Value.relative (.day 2020 1 31) .after ⟨some 1, some 1, none, none, none, none⟩).resolve
        false).under Policy.plain.resolving = .ok bounds :=
    exists_ok (by decide +kernel)
  have hle : Duration.AtMost ⟨0, 1, 0, 0, 0, 0⟩ ⟨1, 1, 0, 0, 0, 0⟩ := by
    intro unit
    cases unit <;> decide
  have hnested := (relative_nested .plain false (.day 2020 1 31) .after).2
    ⟨none, some 1, none, none, none, none⟩ ⟨some 1, some 1, none, none, none, none⟩ bounds hle hbounds
  simp only [resolved_false] at hnested
  exact hnested

end Range

end DateSpan
