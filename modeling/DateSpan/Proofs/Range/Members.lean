import DateSpan.Proofs.Range.Intersection

/-! Versions within ranges. A range that starts after the last version and does not end holds none;
every other range holds one, and bounds that hold none make no range. -/

namespace DateSpan

def Version.final : Version := ⟨versionSeconds - 1, by decide⟩

namespace Bounds

def Holds (b : Bounds) (v : Version) : Prop :=
  b.first ≤ .second v.seconds ∧ .second v.seconds ≤ b.last

/-- Whatever comes after the last version. -/
def afterFinal : Bounds := ⟨some ⟨.final, true⟩, none⟩

theorem afterFinal_first : afterFinal.first = .second versionSeconds := by
  decide

theorem not_holds_afterFinal (v : Version) : ¬ afterFinal.Holds v := by
  rintro ⟨hfirst, -⟩
  rw [afterFinal_first] at hfirst
  have hle := (Limit.second_le_second _ _).mp hfirst
  have hv := v.inCalendar
  omega

theorem eq_afterFinal {b : Bounds} (hfirst : b.first = .second versionSeconds)
    (hle : b.first ≤ b.last) : b = afterFinal := by
  obtain ⟨lower, upper⟩ := b
  cases upper with
  | some u =>
    have hlast : Bounds.last ⟨lower, some u⟩ = .second u.upperSecond := rfl
    rw [hfirst, hlast] at hle
    have hle := (Limit.second_le_second _ _).mp hle
    have hlt := last_lt hlast
    omega
  | none =>
    cases lower with
    | none => cases hfirst
    | some a =>
      have hsecond : a.lowerSecond = versionSeconds := Limit.second.inj hfirst
      have ha := a.version.inCalendar
      obtain ⟨v, isOpen⟩ := a
      cases isOpen with
      | false =>
        rw [← Anchor.closed, Anchor.lowerSecond_closed] at hsecond
        simp only at ha
        omega
      | true =>
        rw [Anchor.lowerSecond_open] at hsecond
        have hv : v = .final := Version.eq_of_seconds (by simp only [Version.final]; omega)
        rw [hv]
        rfl

/-! ## Ends -/

section Ends

variable {b : Bounds} (hle : b.first ≤ b.last) (hzero : .second 0 ≤ b.last)

include hle

theorem holds_first (hne : b ≠ afterFinal) (hlower : b.lower ≠ none) :
    ∃ v : Version, b.first = .second v.seconds ∧ b.Holds v := by
  cases hfirst : b.first with
  | below => exact absurd (b.first_eq_below_iff.mp hfirst) hlower
  | above => exact absurd hfirst b.first_ne_above
  | second n =>
    obtain ⟨hn, hn'⟩ := first_bounds hfirst
    have hlt : n ≠ versionSeconds := by
      rintro rfl
      exact hne (eq_afterFinal hfirst hle)
    obtain ⟨m, rfl⟩ := Int.eq_ofNat_of_zero_le hn
    rw [hfirst] at hle
    exact ⟨⟨m, by omega⟩, rfl, hfirst.le, hle⟩

include hzero

theorem holds_last (hupper : b.upper ≠ none) :
    ∃ v : Version, b.last = .second v.seconds ∧ b.Holds v := by
  cases hlast : b.last with
  | below => exact absurd hlast b.last_ne_below
  | above => exact absurd (b.last_eq_above_iff.mp hlast) hupper
  | second n =>
    have hlt := last_lt hlast
    rw [hlast] at hle hzero
    have hn := (Limit.second_le_second _ _).mp hzero
    obtain ⟨m, rfl⟩ := Int.eq_ofNat_of_zero_le hn
    exact ⟨⟨m, by omega⟩, rfl, hle, hlast.ge⟩

theorem exists_holds (hne : b ≠ afterFinal) (hpresent : b.isAbsent = false) : ∃ v, b.Holds v := by
  by_cases hlower : b.lower = none
  · have hupper : b.upper ≠ none := by
      intro hupper
      simp [isAbsent, hlower, hupper] at hpresent
    obtain ⟨v, -, hv⟩ := holds_last hle hzero hupper
    exact ⟨v, hv⟩
  · obtain ⟨v, -, hv⟩ := holds_first hle hne hlower
    exact ⟨v, hv⟩

end Ends

end Bounds

namespace Range

theorem edgeVersion_seconds (v : Version) : edgeVersion (.second v.seconds) = .ok (some v) := by
  rw [edgeVersion, Version.ofEpoch_seconds]
  rfl

theorem contains_iff_holds (r : Range) (v : Version) : r.contains v ↔ r.toBounds.Holds v :=
  r.contains_iff v

/-- Bounds that hold no version are refused, but for those after the last one. -/
theorem ofBounds_of_none {b : Bounds} (h : ∀ v, ¬ b.Holds v) (hne : b ≠ .afterFinal) :
    ∃ f, ofBounds b = .error f ∧ f.classOf = .logic := by
  cases hr : ofBounds b with
  | error f => exact ⟨f, rfl, ofBounds_error hr⟩
  | ok r =>
    obtain rfl := ofBounds_eq_ok_iff.mp hr
    obtain ⟨v, hv⟩ := Bounds.exists_holds r.first_le_last r.zero_le_last hne r.present
    exact absurd hv (h v)

theorem ofBounds_afterFinal : ∃ r, ofBounds .afterFinal = .ok r :=
  ⟨_, ofBounds_eq_ok (b := .afterFinal) rfl rfl (by decide)⟩

/-! ## Construction -/

/-- The bounds that two ends denote. -/
def endsGiven (p : Policy) (lower upper : Datum) : Except Fault Bounds := do
  let l ← Anchor.ofEnd p lower
  let u ← Anchor.ofEnd p upper
  return ⟨l, u⟩

/-- The bounds that a text denotes. -/
def textGiven (p : Policy) (s : String) : Except Fault Bounds := do
  match ← p.read s with
  | ⟨v, []⟩ => (v.resolve false).under p.resolving
  | _ => throw (.notOneRange s)

def datumGiven (p : Policy) : Datum → Except Fault Bounds
  | .null => .ok ⟨none, none⟩
  | .range r => .ok r.toBounds
  | .text s => textGiven p s
  | .dict t =>
    if Table.has t "lower" || Table.has t "upper" then
      endsGiven p ((Table.get? t "lower").getD .null) ((Table.get? t "upper").getD .null)
    else .error .rangeWithoutEnds
  | d => do
    let v ← Version.ofDatum p d
    return ⟨some (.closed v), some (.closed v)⟩

/-- The bounds that the arguments of a construction denote, before they are checked. -/
def given (p : Policy) (value lower upper : Datum) : Except Fault Bounds :=
  match value, lower, upper with
  | .null, _, _ => endsGiven p lower upper
  | _, .null, .null => datumGiven p value
  | _, _, _ => .error .rangeTwice

theorem ofEnds_eq (p : Policy) (lower upper : Datum) :
    ofEnds p lower upper = endsGiven p lower upper >>= ofBounds := by
  unfold ofEnds endsGiven
  cases Anchor.ofEnd p lower with
  | error f => rfl
  | ok l =>
    cases Anchor.ofEnd p upper with
    | error f => rfl
    | ok u => rfl

theorem ofText_eq_given (p : Policy) (s : String) :
    ofText p s = textGiven p s >>= ofBounds := by
  unfold ofText textGiven
  cases p.read s with
  | error f => rfl
  | ok e =>
    obtain ⟨v, others⟩ := e
    cases others with
    | nil => rfl
    | cons w ws => rfl

theorem ofVersion_eq (p : Policy) (d : Datum) :
    (do ofVersion (← Version.ofDatum p d)) = (do
      let v ← Version.ofDatum p d
      return ⟨some (.closed v), some (.closed v)⟩ : Except Fault Bounds) >>= ofBounds := by
  cases Version.ofDatum p d with
  | error f => rfl
  | ok v => rfl

theorem ofDatum_eq (p : Policy) (d : Datum) : ofDatum p d = datumGiven p d >>= ofBounds := by
  cases d with
  | null => rfl
  | range r => exact (ofBounds_toBounds r).symm
  | text s => exact ofText_eq_given p s
  | dict t =>
    simp only [ofDatum, datumGiven]
    split
    · exact ofEnds_eq p _ _
    · rfl
  | _ => exact ofVersion_eq p _

theorem make_eq (p : Policy) (value lower upper : Datum) :
    make p value lower upper = given p value lower upper >>= ofBounds := by
  unfold make
  split
  · exact ofEnds_eq p lower upper
  · rename_i hvalue
    rw [given]
    · exact ofDatum_eq p value
    · exact hvalue
  · rename_i hvalue hends
    rw [given]
    · rfl
    · exact hvalue
    · exact hends

/-- A range is made of the bounds that are given, however they are given. It holds a version, its first
and last ones among them, and bounds that hold none are refused; the only exception are the bounds
after the last version, which make a range without versions. -/
theorem make_inhabited (p : Policy) (value lower upper : Datum) :
    make p value lower upper = given p value lower upper >>= ofBounds ∧
    (∀ r, make p value lower upper = .ok r → r.toBounds ≠ .afterFinal →
      (∃ v, r.contains v) ∧
      (r.lower ≠ none → ∃ v, r.firstVersion = .ok (some v) ∧ r.contains v) ∧
      (r.upper ≠ none → ∃ v, r.lastVersion = .ok (some v) ∧ r.contains v)) ∧
    (∀ b, given p value lower upper = .ok b → (∀ v, ¬ b.Holds v) → b ≠ .afterFinal →
      ∃ f, make p value lower upper = .error f ∧ f.classOf = .logic) ∧
    (given p value lower upper = .ok .afterFinal →
      ∃ r, make p value lower upper = .ok r ∧ (∀ v, ¬ r.contains v) ∧
        ∃ f, r.firstVersion = .error f ∧ f.classOf = .logic) := by
  have heq := make_eq p value lower upper
  refine ⟨heq, ?_, ?_, ?_⟩
  · intro r _ hne
    have hle := r.first_le_last
    have hzero := r.zero_le_last
    refine ⟨?_, ?_, ?_⟩
    · obtain ⟨v, hv⟩ := Bounds.exists_holds hle hzero hne r.present
      exact ⟨v, (r.contains_iff_holds v).mpr hv⟩
    · intro hlower
      obtain ⟨v, hfirst, hv⟩ := Bounds.holds_first hle hne hlower
      refine ⟨v, ?_, (r.contains_iff_holds v).mpr hv⟩
      rw [firstVersion, hfirst, edgeVersion_seconds]
    · intro hupper
      obtain ⟨v, hlast, hv⟩ := Bounds.holds_last hle hzero hupper
      refine ⟨v, ?_, (r.contains_iff_holds v).mpr hv⟩
      rw [lastVersion, hlast, edgeVersion_seconds]
  · intro b hb hnone hne
    rw [heq, hb]
    exact ofBounds_of_none hnone hne
  · intro hb
    obtain ⟨r, hr⟩ := ofBounds_afterFinal
    have hbounds := ofBounds_eq_ok_iff.mp hr
    refine ⟨r, ?_, ?_, .epochUnreachable (.int (1000 * versionSeconds)), ?_, rfl⟩
    · rw [heq, hb]
      exact hr
    · intro v hv
      rw [contains_iff_holds, hbounds] at hv
      exact Bounds.not_holds_afterFinal v hv
    · rw [firstVersion, hbounds, Bounds.afterFinal_first, edgeVersion,
        Version.ofEpoch_versionSeconds]
      rfl

end Range

end DateSpan
