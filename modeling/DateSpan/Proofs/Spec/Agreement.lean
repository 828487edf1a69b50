import DateSpan.Proofs.Expr.Faults
import DateSpan.Proofs.Range.Members
import DateSpan.Proofs.Spec.Joining

/-! What one text denotes as a version, as a range, as a spec and as a duration. The readings agree,
and a text that is refused is refused for its form or for the dates that it names, unless a number in
it is out of reach. -/

namespace DateSpan

open DateSpan.Expr

variable {p : Policy} {s : String} {f : Fault}

/-! ## Faults of texts -/

/-- The text has not the form, names or reaches no date, or has a number of too many digits. -/
def Fault.OfText (p : Policy) (s : String) (f : Fault) : Prop :=
  f.classOf = .parse ∨ (f.classOf = .logic ∧ ∃ e, p.read s = .ok e) ∨
    (f = .longNumber ∧ LongFront s.toList)

theorem Fault.not_ofText_tooLarge : ¬ Fault.tooLarge.OfText p s := by
  rintro (h | ⟨h, -⟩ | ⟨h, -⟩) <;> cases h

theorem Policy.read_fault (hp : p.Valid) (h : p.read s = .error f) : f.OfText p s := by
  rcases read_error hp h with rfl | ⟨m, rfl⟩
  · exact .inr (.inr ⟨rfl, (read_eq_longNumber_iff hp).mp h⟩)
  · exact .inl rfl

theorem Policy.read_small {e : Expression} (h : p.read s = .ok e) {v : Value} (hv : v ∈ e.values) :
    v.Small :=
  Expr.read_small (read_eq_ok.mp h).2 hv

/-- What is made of a text fails with the reading of the text or with what was read. -/
theorem Policy.read_bind_error {α : Type} (hp : p.Valid) {k : Expression → Except Fault α}
    (h : p.read s >>= k = .error f) : f.OfText p s ∨ ∃ e, p.read s = .ok e ∧ k e = .error f := by
  rcases bind_eq_error h with hread | hrest
  · exact .inl (read_fault hp hread)
  · exact .inr hrest

theorem Policy.read_bind_long {α : Type} (hp : p.Valid) (h : LongFront s.toList)
    (k : Expression → Except Fault α) : p.read s >>= k = .error .longNumber := by
  rw [(read_eq_longNumber_iff hp).mpr h]
  rfl

/-! ## Versions and durations -/

namespace Version

theorem ofText_brief (hp : p.Valid) {b : Brief} (h : p.read s = .ok ⟨.brief b, []⟩) :
    ofText p s = (b.ends false).map fun ends => ends.1.version := by
  obtain ⟨-, ⟨wanted, hresolving⟩, -⟩ := hp
  rw [ofText, h, hresolving]
  cases hends : b.ends false with
  | error f =>
    simp only [bind, Except.bind, hends]
    rfl
  | ok ends =>
    simp only [bind, Except.bind, hends]
    rfl

theorem ofText_other {e : Expression} (h : p.read s = .ok e)
    (hother : ∀ b, e ≠ ⟨.brief b, []⟩) : ofText p s = .error (.notAVersion s) := by
  obtain ⟨v, others⟩ := e
  rw [ofText, h]
  cases v with
  | brief b =>
    cases others with
    | nil => exact absurd rfl (hother b)
    | cons w ws => rfl
  | _ => rfl

theorem ofText_of_valid (hp : p.Valid) {b : Brief} (h : p.read s = .ok ⟨.brief b, []⟩)
    (hb : b.Valid) : ∃ v, ofText p s = .ok v ∧ v.civil = b.firstCivil := by
  obtain ⟨first, last, hends, hfirst, -⟩ := hb.ends_eq
  refine ⟨first, ?_, hfirst⟩
  rw [ofText_brief hp h, hends]
  rfl

theorem ofText_cases (hp : p.Valid) {e : Expression} (h : p.read s = .ok e) :
    (∃ b, e = ⟨.brief b, []⟩ ∧ b.Valid) ∨
      ∃ f, ofText p s = .error f ∧ (f.classOf = .parse ∨ f.classOf = .logic) := by
  by_cases hbrief : ∃ b, e = ⟨.brief b, []⟩
  · obtain ⟨b, rfl⟩ := hbrief
    have hsmall : b.Small :=
      (Policy.read_small h (List.mem_singleton_self _)).briefs b (List.mem_singleton_self b)
    rcases hsmall.valid_or_error with hvalid | ⟨f, hends, hclass⟩
    · exact .inl ⟨b, rfl, hvalid⟩
    · refine .inr ⟨f, ?_, .inr hclass⟩
      rw [ofText_brief hp h, hends]
      rfl
  · exact .inr ⟨_, ofText_other h fun b he => hbrief ⟨b, he⟩, .inl rfl⟩

/-- A text makes a version just when it is a brief of the calendar, and then its first second. -/
theorem ofText_eq_ok_iff (hp : p.Valid) {v : Version} :
    ofText p s = .ok v ↔
      ∃ b, p.read s = .ok ⟨.brief b, []⟩ ∧ b.Valid ∧ v.civil = b.firstCivil := by
  constructor
  · intro h
    obtain ⟨e, hread, -⟩ := bind_eq_ok h
    rcases ofText_cases hp hread with ⟨b, rfl, hb⟩ | ⟨f, hf, -⟩
    · obtain ⟨w, hw, hcivil⟩ := ofText_of_valid hp hread hb
      cases h.symm.trans hw
      exact ⟨b, hread, hb, hcivil⟩
    · cases h.symm.trans hf
  · rintro ⟨b, hread, hb, hcivil⟩
    obtain ⟨w, hw, hcivil'⟩ := ofText_of_valid hp hread hb
    rw [hw, eq_of_civil (hcivil.trans hcivil'.symm)]

theorem ofText_error (hp : p.Valid) (h : ofText p s = .error f) : f.OfText p s := by
  rcases Policy.read_bind_error hp h with hread | ⟨e, hread, -⟩
  · exact hread
  · rcases ofText_cases hp hread with ⟨b, rfl, hb⟩ | ⟨f', hf', hclass⟩
    · obtain ⟨v, hv, -⟩ := ofText_of_valid hp hread hb
      cases h.symm.trans hv
    · cases h.symm.trans hf'
      exact hclass.imp id fun hlogic => .inl ⟨hlogic, e, hread⟩

end Version

namespace Duration

theorem ofText_eq_ok_iff {d : Duration} :
    ofText p s = .ok d ↔ ∃ a, p.read s = .ok ⟨.duration a, []⟩ ∧ d = ofAmounts a := by
  constructor
  · intro h
    obtain ⟨e, hread, hform⟩ := bind_eq_ok h
    split at hform
    · cases hform
      exact ⟨_, hread, rfl⟩
    · cases hform
  · rintro ⟨a, hread, rfl⟩
    rw [ofText, hread]
    rfl

theorem ofText_error (hp : p.Valid) (h : ofText p s = .error f) : f.OfText p s := by
  rcases Policy.read_bind_error hp h with hread | ⟨e, -, hform⟩
  · exact hread
  · split at hform
    · cases hform
    · cases hform
      exact .inl rfl

end Duration

/-! ## Ranges -/

namespace Range

theorem ofValue_error (hp : p.Valid) {v : Value} (hv : v.Small)
    (h : ofValue p v = .error f) :
    f.classOf = .parse ∨ f.classOf = .logic ∨ f = .tooLarge ∧ v.Overflows := by
  rw [ofValue_eq hp] at h
  rcases bind_eq_error h with hresolve | ⟨b, -, hbounds⟩
  · rcases Value.resolve_error hv hresolve with hlogic | ⟨a, -, rfl⟩ | hlarge
    · exact .inr (.inl hlogic)
    · exact .inl rfl
    · exact .inr (.inr hlarge)
  · exact .inr (.inl (ofBounds_error hbounds))

theorem ofValue_eq_tooLarge_iff (hp : p.Valid) {v : Value} (hv : v.Small) :
    ofValue p v = .error .tooLarge ↔ v.Overflows := by
  constructor
  · intro h
    rcases ofValue_error hp hv h with hclass | hclass | ⟨-, hover⟩
    · cases hclass
    · cases hclass
    · exact hover
  · intro h
    rw [ofValue_eq hp, h.resolve hv]
    rfl

theorem ofText_eq_ok_iff {r : Range} :
    ofText p s = .ok r ↔ ∃ v, p.read s = .ok ⟨v, []⟩ ∧ ofValue p v = .ok r := by
  constructor
  · intro h
    obtain ⟨e, hread, hform⟩ := bind_eq_ok h
    split at hform
    · exact ⟨_, hread, hform⟩
    · cases hform
  · rintro ⟨v, hread, hvalue⟩
    rw [ofText_of_single hread, hvalue]

theorem ofText_error (hp : p.Valid) (h : ofText p s = .error f) :
    f.OfText p s ∨ f = .tooLarge ∧ ∃ v, p.read s = .ok ⟨v, []⟩ ∧ v.Overflows := by
  rcases Policy.read_bind_error hp h with hread | ⟨e, hread, hform⟩
  · exact .inl hread
  · split at hform
    · rename_i v
      have hsmall := Policy.read_small hread (List.mem_singleton_self v)
      rcases ofValue_error hp hsmall hform with hparse | hlogic | ⟨hlarge, hover⟩
      · exact .inl (.inl hparse)
      · exact .inl (.inr (.inl ⟨hlogic, _, hread⟩))
      · exact .inr ⟨hlarge, v, hread, hover⟩
    · cases hform
      exact .inl (.inl rfl)

theorem ofText_eq_tooLarge_iff (hp : p.Valid) :
    ofText p s = .error .tooLarge ↔ ∃ v, p.read s = .ok ⟨v, []⟩ ∧ v.Overflows := by
  constructor
  · intro h
    rcases ofText_error hp h with hread | ⟨-, hover⟩
    · exact absurd hread Fault.not_ofText_tooLarge
    · exact hover
  · rintro ⟨v, hread, hover⟩
    have hsmall := Policy.read_small hread (List.mem_singleton_self v)
    rw [ofText_of_single hread]
    exact (ofValue_eq_tooLarge_iff hp hsmall).mpr hover

theorem ofValue_duration (hp : p.Valid) (a : Amounts) :
    ofValue p (.duration a) = .error (.notARange a.node) := by
  rw [ofValue_eq hp]
  rfl

/-- A text that makes a version makes the range that starts with it. -/
theorem ofText_of_version (hp : p.Valid) {v : Version} (h : Version.ofText p s = .ok v) :
    ∃ r, ofText p s = .ok r ∧ r.firstVersion = .ok (some v) := by
  obtain ⟨b, hread, hb, hcivil⟩ := (Version.ofText_eq_ok_iff hp).mp h
  obtain ⟨first, last, hends, hfirst, hlast⟩ := hb.ends_eq
  obtain rfl : first = v := Version.eq_of_civil (hfirst.trans hcivil.symm)
  obtain ⟨r, hr, -⟩ := exists_between (Brief.seconds_le hfirst hlast)
  have hvalue : ofValue p (.brief b) = .ok r := by
    rw [ofValue_eq hp, Value.resolve, Brief.resolve_outcome hends]
    exact hr
  have hsecond : r.first = .second first.seconds := by
    rw [ofBounds_eq_ok_iff.mp hr]
    exact congrArg Limit.second (Anchor.lowerSecond_closed first)
  refine ⟨r, ofText_eq_ok_iff.mpr ⟨_, hread, hvalue⟩, ?_⟩
  rw [firstVersion, hsecond, edgeVersion_seconds]

end Range

/-! ## Specs -/

namespace Spec

theorem ofRanges_eq_ok_iff {ranges : List Range} {c : Spec} :
    ofRanges ranges = .ok c ↔ c.ranges = ranges := by
  constructor
  · intro h
    unfold ofRanges at h
    split at h
    · cases h
    · cases h
      rfl
  · rintro rfl
    exact dif_neg c.nonempty

theorem ofText_eq_ok_iff {c : Spec} :
    ofText p s = .ok c ↔
      ∃ e, p.read s = .ok e ∧
        List.Forall₂ (fun v r => Range.ofValue p v = .ok r) e.values c.ranges := by
  constructor
  · intro h
    obtain ⟨e, hread, hvalues⟩ := bind_eq_ok h
    obtain ⟨ranges, hranges, hmake⟩ := bind_eq_ok hvalues
    rw [ofRanges_eq_ok_iff] at hmake
    subst hmake
    exact ⟨e, hread, mapM_eq_ok_iff.mp hranges⟩
  · rintro ⟨e, hread, hranges⟩
    rw [ofText, hread]
    change e.values.mapM (Range.ofValue p) >>= ofRanges = _
    rw [mapM_eq_ok_iff.mpr hranges]
    exact ofRanges_eq_ok_iff.mpr rfl

theorem ofText_eq_error {e : Expression} (hread : p.read s = .ok e) :
    ofText p s = .error f ↔ e.values.mapM (Range.ofValue p) = .error f := by
  have htext : ofText p s = e.values.mapM (Range.ofValue p) >>= ofRanges := by
    rw [ofText, hread]
    rfl
  rw [htext]
  constructor
  · intro h
    rcases bind_eq_error h with hvalues | ⟨ranges, hranges, hmake⟩
    · exact hvalues
    · have hlength := (mapM_eq_ok_iff.mp hranges).length_eq
      unfold ofRanges at hmake
      split at hmake
      · rename_i hnil
        rw [hnil] at hlength
        cases hlength
      · cases hmake
  · intro h
    rw [h]
    rfl

theorem ofText_error (hp : p.Valid) (h : ofText p s = .error f) :
    f.OfText p s ∨ f = .tooLarge := by
  rcases Policy.read_bind_error hp h with hread | ⟨e, hread, -⟩
  · exact .inl hread
  · rw [ofText_eq_error hread] at h
    obtain ⟨before, v, after, hvalues, -, hv⟩ := mapM_eq_error_iff.mp h
    have hsmall : v.Small :=
      Policy.read_small hread (hvalues ▸ List.mem_append_right before (List.mem_cons_self ..))
    rcases Range.ofValue_error hp hsmall hv with hparse | hlogic | ⟨hlarge, -⟩
    · exact .inl (.inl hparse)
    · exact .inl (.inr (.inl ⟨hlogic, e, hread⟩))
    · exact .inr hlarge

theorem ofText_eq_tooLarge_iff (hp : p.Valid) :
    ofText p s = .error .tooLarge ↔
      ∃ e before v after, p.read s = .ok e ∧ e.values = before ++ v :: after ∧
        (∀ u ∈ before, ∃ r, Range.ofValue p u = .ok r) ∧ v.Overflows := by
  have hsmall : ∀ {e : Expression} {before v after}, p.read s = .ok e →
      e.values = before ++ v :: after → v.Small := fun hread hvalues =>
    Policy.read_small hread (hvalues ▸ List.mem_append_right _ (List.mem_cons_self ..))
  constructor
  · intro h
    rcases Policy.read_bind_error hp h with hread | ⟨e, hread, -⟩
    · exact absurd hread Fault.not_ofText_tooLarge
    · rw [ofText_eq_error hread] at h
      obtain ⟨before, v, after, hvalues, hbefore, hv⟩ := mapM_eq_error_iff.mp h
      exact ⟨e, before, v, after, hread, hvalues, hbefore,
        (Range.ofValue_eq_tooLarge_iff hp (hsmall hread hvalues)).mp hv⟩
  · rintro ⟨e, before, v, after, hread, hvalues, hbefore, hover⟩
    rw [ofText_eq_error hread]
    exact mapM_eq_error_iff.mpr ⟨before, v, after, hvalues, hbefore,
      (Range.ofValue_eq_tooLarge_iff hp (hsmall hread hvalues)).mpr hover⟩

/-- A text makes a range just when it makes a spec of that range alone. -/
theorem ofText_singleton_iff {r : Range} :
    (∃ c, ofText p s = .ok c ∧ c.ranges = [r]) ↔ Range.ofText p s = .ok r := by
  rw [Range.ofText_eq_ok_iff]
  constructor
  · rintro ⟨c, hc, hranges⟩
    obtain ⟨⟨v, vs⟩, hread, hvalues⟩ := ofText_eq_ok_iff.mp hc
    rw [hranges] at hvalues
    cases hvalues with
    | cons hv hvs =>
      cases hvs
      exact ⟨v, hread, hv⟩
  · rintro ⟨v, hread, hv⟩
    exact ⟨⟨[r], List.cons_ne_nil r []⟩, ofText_eq_ok_iff.mpr ⟨_, hread, .cons hv .nil⟩, rfl⟩

end Spec

/-! ## An amount out of reach -/

namespace Expr

def Amounts.ofMonths (n : Nat) : Amounts := ⟨none, some n, none, none, none, none⟩

/-- The text of the year 2020 and so many months after it. -/
def monthsAfter (n : Nat) : List Char :=
  ['2', '0', '2', '0'] ++ (['+'] ++ ('P' :: (Nat.toDigits 10 n ++ ['M'])))

theorem derivation_months (n : Nat) :
    Derivation (monthsAfter n)
      ⟨.relative (.year 2020) .after (.ofMonths n), []⟩
      [.brief (.year 2020), .side .after, .duration (.ofMonths n)]
      [['2', '0', '2', '0'], ['+'], 'P' :: (Nat.toDigits 10 n ++ ['M'])] := by
  have hyear : BriefText (.year 2020) ['2', '0', '2', '0'] :=
    .year ⟨⟨[2, 0, 2, 0], by decide, rfl⟩, rfl⟩
  have hcount : CountText 'M' (some n) (Nat.toDigits 10 n ++ ['M']) :=
    .written Nat.toDigits_ne_nil (Text.numeral_toDigits n)
  have hdur := DurationText.written .absent hcount .absent .absent (.inr (.inl rfl))
  simp only [List.append_nil, List.nil_append] at hdur
  have hwords := Words.front_cons (.brief hyear)
    (.front_cons .plus (.front_cons (.duration hdur) (@Words.nil [])))
  rw [List.append_nil] at hwords
  exact ⟨⟨[], hwords, nofun⟩, .single .relative⟩

/-- Months that no floating-point number counts are too many, wherever they start. -/
theorem months_overflow {b : Brief} (hb : b.Valid) {n : Nat} (hn : floatLimit ≤ n) :
    (Value.relative b .after (.ofMonths n)).Overflows := by
  obtain ⟨first, last, hends, -⟩ := hb.ends_eq
  exact ⟨_, _, hends, [(.year, 0)], .month, n, _, last.moment, rfl, rfl, rfl, hn⟩

end Expr

theorem Policy.read_months (hp : p.Valid) {k : Nat} (hk : k + 3 ≤ Text.maxDigits) :
    p.read (String.ofList (monthsAfter (10 ^ k))) =
      .ok ⟨.relative (.year 2020) .after (.ofMonths (10 ^ k)), []⟩ := by
  rw [read_eq_ok_iff hp, String.toList_ofList]
  refine ⟨_, _, derivation_months _, ?_⟩
  have hlength : (Nat.toDigits 10 (10 ^ k)).length ≤ k + 1 :=
    (Nat.length_toDigits_le_iff (by decide) k.succ_pos).mpr (Nat.pow_lt_pow_succ (by decide))
  have hmax : 4 ≤ Text.maxDigits := by decide
  intro l hl hlong
  have hlt := hlong.length_lt
  simp only [List.mem_cons, List.not_mem_nil, or_false] at hl
  rcases hl with rfl | rfl | rfl
  · exact absurd hlt (Nat.not_lt.mpr hmax)
  · exact absurd hlt (by decide)
  · rw [List.length_cons, List.length_append, List.length_singleton] at hlt
    omega

/-! ## Agreement -/

namespace Policy

/-- What the constructions from a text have to do with each other, and how each can fail. -/
structure Agrees (p : Policy) (s : String) : Prop where
  version : ∀ v, Version.ofDatum p (.text s) = .ok v ↔
    ∃ b, p.read s = .ok ⟨.brief b, []⟩ ∧ b.Valid ∧ v.civil = b.firstCivil
  duration : ∀ d, Duration.ofArguments p (some (.text s)) [] = .ok d ↔
    ∃ a, p.read s = .ok ⟨.duration a, []⟩ ∧ d = .ofAmounts a
  spec : ∀ c, Spec.ofDatum p (.text s) = .ok c ↔
    ∃ e, p.read s = .ok e ∧
      List.Forall₂ (fun v r => Range.ofValue p v = .ok r) e.values c.ranges
  /-- A range is a spec of one range. -/
  range : ∀ r, Range.make p (.text s) .null .null = .ok r ↔
    ∃ c, Spec.ofDatum p (.text s) = .ok c ∧ c.ranges = [r]
  /-- The range of a version starts with it. -/
  version_range : ∀ v, Version.ofDatum p (.text s) = .ok v →
    ∃ r, Range.make p (.text s) .null .null = .ok r ∧ r.firstVersion = .ok (some v)
  /-- A duration is nothing else. -/
  duration_alone : ∀ d, Duration.ofArguments p (some (.text s)) [] = .ok d →
    (∃ f, Version.ofDatum p (.text s) = .error f ∧ f.classOf = .parse) ∧
    (∃ f, Range.make p (.text s) .null .null = .error f ∧ f.classOf = .parse) ∧
    ∃ f, Spec.ofDatum p (.text s) = .error f ∧ f.classOf = .parse
  version_error : ∀ f, Version.ofDatum p (.text s) = .error f → f.OfText p s
  duration_error : ∀ f, Duration.ofArguments p (some (.text s)) [] = .error f → f.OfText p s
  range_error : ∀ f, Range.make p (.text s) .null .null = .error f →
    f.OfText p s ∨ f = .tooLarge
  spec_error : ∀ f, Spec.ofDatum p (.text s) = .error f → f.OfText p s ∨ f = .tooLarge
  /-- The amount that is too large for a range stands in the duration that the range is moved by. -/
  range_overflow : Range.make p (.text s) .null .null = .error .tooLarge ↔
    ∃ v, p.read s = .ok ⟨v, []⟩ ∧ v.Overflows
  /-- A spec has such an amount in the first of its values that makes no range. -/
  spec_overflow : Spec.ofDatum p (.text s) = .error .tooLarge ↔
    ∃ e before v after, p.read s = .ok e ∧ e.values = before ++ v :: after ∧
      (∀ u ∈ before, ∃ r, Range.ofValue p u = .ok r) ∧ v.Overflows
  /-- A number of too many digits is refused wherever the text is taken. -/
  long : LongFront s.toList →
    Version.ofDatum p (.text s) = .error .longNumber ∧
    Range.make p (.text s) .null .null = .error .longNumber ∧
    Spec.ofDatum p (.text s) = .error .longNumber ∧
    Duration.ofArguments p (some (.text s)) [] = .error .longNumber

/-- Whatever the text, what is made of it as a version, a range, a spec and a duration agrees. -/
theorem texts_agree (hp : p.Valid) (s : String) : p.Agrees s where
  version := fun _ => Version.ofText_eq_ok_iff hp
  duration := fun _ => Duration.ofText_eq_ok_iff
  spec := fun _ => Spec.ofText_eq_ok_iff
  range := fun _ => Spec.ofText_singleton_iff.symm
  version_range := fun _ => Range.ofText_of_version hp
  duration_alone := by
    intro d hd
    obtain ⟨a, hread, -⟩ := Duration.ofText_eq_ok_iff.mp hd
    have hvalue := Range.ofValue_duration hp a
    have hrange : Range.ofText p s = .error (.notARange a.node) := by
      rw [Range.ofText_of_single hread, hvalue]
    have hspec : Spec.ofText p s = .error (.notARange a.node) :=
      (Spec.ofText_eq_error hread).mpr (mapM_eq_error_iff.mpr ⟨[], _, [], rfl, nofun, hvalue⟩)
    exact ⟨⟨_, Version.ofText_other hread nofun, rfl⟩, ⟨_, hrange, rfl⟩, ⟨_, hspec, rfl⟩⟩
  version_error := fun _ => Version.ofText_error hp
  duration_error := fun _ => Duration.ofText_error hp
  range_error := fun _ h => (Range.ofText_error hp h).imp id And.left
  spec_error := fun _ => Spec.ofText_error hp
  range_overflow := Range.ofText_eq_tooLarge_iff hp
  spec_overflow := Spec.ofText_eq_tooLarge_iff hp
  long := fun h => ⟨read_bind_long hp h _, read_bind_long hp h _, read_bind_long hp h _,
    read_bind_long hp h _⟩

/-- A duration of ten to the 309th months is no fault of its text, and yet is refused. -/
theorem texts_agree_overflow :
    plain.Valid ∧
      Range.make plain (.text (String.ofList (monthsAfter (10 ^ 309)))) .null .null =
        .error .tooLarge := by
  have hread := read_months plain_valid (k := 309) (by decide)
  have hvalid : (Brief.year 2020).Valid := ⟨by constructor <;> decide, by decide⟩
  have hover := months_overflow hvalid (n := 10 ^ 309) (by decide +kernel)
  exact ⟨plain_valid, (texts_agree plain_valid _).range_overflow.mpr ⟨_, hread, hover⟩⟩

end Policy

end DateSpan
