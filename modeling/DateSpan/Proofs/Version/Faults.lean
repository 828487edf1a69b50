import DateSpan.Proofs.Calendar.Offsets
import DateSpan.Proofs.Outcome
import DateSpan.Proofs.Version.Reading
import DateSpan.Version.Arithmetic
import Mathlib.Tactic.SplitIfs

/-! Faults of version arithmetic. Fields that do not occur, and moments outside the calendar, are
refused as such; only an amount that no floating-point number reaches is refused as too large, and one
that has too many digits to be shown is refused for them. -/

namespace DateSpan

open Calendar

/-! ## Fields -/

/-- Fields that do not occur are refused. -/
theorem Calendar.Civil.ofFields_of_not_valid {c : Civil} (h : ¬ c.Valid) :
    ∃ f, ofFields c.year c.month c.day c.hour c.minute c.second = .error f := by
  unfold ofFields
  split_ifs with hyear hmonth hday hhour hminute hsecond
  iterate 6 exact ⟨_, rfl⟩
  simp only [Int.toNat_natCast] at hday
  refine absurd ⟨?_, ?_, ?_, ?_, ?_, ?_⟩ h <;> omega

namespace Version

theorem ofMoment_error {m : Moment} {f : Fault} (h : ofMoment m = .error f) :
    f.classOf = .logic := by
  unfold ofMoment at h
  split at h
  · cases h
  · cases h
    rfl

/-- Fields of a few digits make a version, or are refused for what they say. -/
theorem ofFields_cases {c : Civil} (hsmall : ∀ x, c.component x ≤ 9999) :
    (c.Valid ∧ 1970 ≤ c.year) ∨
      ∃ f, ofFields c.year c.month c.day c.hour c.minute c.second = .error f ∧
        f.classOf = .logic := by
  have hwords :
      [(c.year : Int), c.month, c.day, c.hour, c.minute, c.second].all fitsWord = true := by
    simp only [List.all_cons, List.all_nil, Bool.and_true, Bool.and_eq_true]
    exact ⟨fitsWord_natCast (hsmall .year), fitsWord_natCast (hsmall .month),
      fitsWord_natCast (hsmall .day), fitsWord_natCast (hsmall .hour),
      fitsWord_natCast (hsmall .minute), fitsWord_natCast (hsmall .second)⟩
  by_cases hvalid : c.Valid
  · by_cases hyear : 1970 ≤ c.year
    · exact .inl ⟨hvalid, hyear⟩
    · have hinstant : Instant.ofSeconds? c.seconds = some ⟨c.seconds, hvalid.seconds_lt⟩ := by
        simp [Instant.ofSeconds?, hvalid.seconds_lt]
      have hepoch : ¬ epochStart ≤ c.seconds := fun h => hyear (hvalid.epochStart_le_iff.mp h)
      have hnone : ofInstant? ⟨c.seconds, hvalid.seconds_lt⟩ = none := by
        rw [ofInstant?, ofSeconds?, dif_neg]
        simp only
        omega
      refine .inr ⟨.beforeEpoch ⟨⟨c.seconds, hvalid.seconds_lt⟩, 0⟩, ?_, rfl⟩
      simp only [ofFields, ofFieldsShown, hwords, Civil.ofFields_eq_ok hvalid, hinstant, if_true,
        ofMoment, hnone]
  · obtain ⟨fault, hfault⟩ := Civil.ofFields_of_not_valid hvalid
    refine .inr ⟨.invalidDate ([(c.year : Int), c.month, c.day, c.hour, c.minute, c.second].map
      Datum.int) (.field fault), ?_, rfl⟩
    simp only [ofFields, ofFieldsShown, hwords, hfault, if_true]

/-! ## Shifts -/

/-- The amount is carried into larger units and too large for that. -/
def IsOverflow (unit : Component) (n : Nat) : Prop :=
  (Calendar.Unit.component unit).isCarried ∧ floatLimit ≤ n

/-- The amount is not carried and has too many digits to be shown. -/
def IsUnwritable (unit : Component) (n : Nat) : Prop :=
  (Calendar.Unit.component unit).isCarried = false ∧ Text.isWritable n = false

theorem floatLimit_pos : 0 < floatLimit := by
  decide +kernel

theorem isWritable_of_lt_floatLimit {n : Nat} (h : n < floatLimit) : Text.isWritable n = true := by
  have hlimit : floatLimit ≤ Nat.pow 10 Text.maxDigits := by decide +kernel
  exact decide_eq_true (Nat.lt_of_lt_of_le h hlimit)

theorem IsUnwritable.floatLimit_le {unit : Component} {n : Nat} (h : IsUnwritable unit n) :
    floatLimit ≤ n := by
  by_contra hlt
  have hwritable := isWritable_of_lt_floatLimit (Nat.not_le.mp hlt)
  exact Bool.false_ne_true (h.2.symm.trans hwritable)

theorem shifted_of_large {unit : Component} {amount : Int}
    (hunit : (Calendar.Unit.component unit).isCarried) (hamount : floatLimit ≤ amount.natAbs)
    (m : Moment) : m.shifted unit amount = .error .tooLarge := by
  unfold Moment.shifted Moment.moved
  rw [if_pos]
  rw [hunit, Bool.true_and, decide_eq_true_eq]
  exact hamount

/-- An amount that is not too large is one to move the instant by. -/
theorem shifted_of_small {unit : Component} {amount : Int} (h : ¬ IsOverflow unit amount.natAbs)
    (m : Moment) : m.shifted unit amount =
      match m.instant.shift unit amount with
      | some i => .ok { m with instant := i }
      | none => .error (if Text.isWritable amount.natAbs then
          .outOfCalendar m amount (.component unit) else .longNumber) := by
  unfold Moment.shifted Moment.moved
  rw [if_neg]
  · rw [Moment.shiftBy, Moment.shift]
    cases m.instant.shift unit amount with
    | none => rfl
    | some i => rfl
  · rw [Bool.and_eq_true, decide_eq_true_eq]
    exact h

theorem shifted_error {m : Moment} {unit : Component} {amount : Int} {f : Fault}
    (h : m.shifted unit amount = .error f) :
    f.classOf = .logic ∨ f = .tooLarge ∧ IsOverflow unit amount.natAbs ∨
      f = .longNumber ∧ IsUnwritable unit amount.natAbs := by
  by_cases hover : IsOverflow unit amount.natAbs
  · cases (shifted_of_large hover.1 hover.2 m).symm.trans h
    exact .inr (.inl ⟨rfl, hover⟩)
  · rw [shifted_of_small hover] at h
    split at h
    · cases h
    · obtain rfl := Except.error.inj h
      cases hwritable : Text.isWritable amount.natAbs with
      | true => exact .inl rfl
      | false =>
        refine .inr (.inr ⟨rfl, ?_, hwritable⟩)
        cases hcarried : (Calendar.Unit.component unit).isCarried with
        | false => rfl
        | true =>
          have hlt := Nat.not_le.mp fun hlarge => hover ⟨hcarried, hlarge⟩
          exact absurd (isWritable_of_lt_floatLimit hlt) (Bool.eq_false_iff.mp hwritable)

/-- The first counts move the moment within the calendar, and the next one is as said. -/
def Reaches (said : Component → Nat → Prop) (sign : Int) (counts : List (Component × Nat))
    (m : Moment) : Prop :=
  ∃ before unit n after m', counts = before ++ (unit, n) :: after ∧
    shiftAll sign before m = .ok m' ∧ said unit n

/-- The first counts move the moment within the calendar, and the next one is carried into larger
units and too large for that. -/
def Overflows (sign : Int) (counts : List (Component × Nat)) (m : Moment) : Prop :=
  ∃ before unit n after m', counts = before ++ (unit, n) :: after ∧
    shiftAll sign before m = .ok m' ∧ (Calendar.Unit.component unit).isCarried ∧ floatLimit ≤ n

section

variable {sign : Int} {unit : Component} {n : Nat} {counts : List (Component × Nat)} {m m' : Moment}
  {f : Fault} {said : Component → Nat → Prop}

theorem overflows_iff : Overflows sign counts m ↔ Reaches IsOverflow sign counts m := Iff.rfl

theorem shiftAll_zero (h : n = 0) :
    shiftAll sign ((unit, n) :: counts) m = shiftAll sign counts m := by
  rw [shiftAll, if_pos h]

theorem shiftAll_cons (h : n ≠ 0) :
    shiftAll sign ((unit, n) :: counts) m =
      m.shifted unit (sign * n) >>= fun m' => shiftAll sign counts m' := by
  rw [shiftAll, if_neg h]

theorem natAbs_sign_mul (hsign : sign.natAbs = 1) (n : Nat) : (sign * n).natAbs = n := by
  rw [Int.natAbs_mul, hsign, Nat.one_mul, Int.natAbs_natCast]

theorem Reaches.head (h : said unit n) (counts : List (Component × Nat)) (m : Moment) :
    Reaches said sign ((unit, n) :: counts) m :=
  ⟨[], unit, n, counts, m, rfl, rfl, h⟩

theorem Reaches.cons (h : Reaches said sign counts m')
    (hfirst : ∀ counts, shiftAll sign ((unit, n) :: counts) m = shiftAll sign counts m') :
    Reaches said sign ((unit, n) :: counts) m := by
  obtain ⟨before, unit', n', after, m'', rfl, hbefore, hsaid⟩ := h
  exact ⟨(unit, n) :: before, unit', n', after, m'', rfl, (hfirst before).trans hbefore, hsaid⟩

theorem Reaches.mem (h : Reaches said sign counts m) : ∃ unit n, (unit, n) ∈ counts ∧ said unit n := by
  obtain ⟨before, unit, n, after, m', rfl, -, hsaid⟩ := h
  exact ⟨unit, n, List.mem_append_right _ (List.mem_cons_self ..), hsaid⟩

/-- Moving a moment fails where it leaves the calendar, or at the first count that is too large or
cannot be shown. -/
theorem shiftAll_error (hsign : sign.natAbs = 1) (h : shiftAll sign counts m = .error f) :
    f.classOf = .logic ∨ f = .tooLarge ∧ Overflows sign counts m ∨
      f = .longNumber ∧ Reaches IsUnwritable sign counts m := by
  induction counts generalizing m with
  | nil => cases h
  | cons count counts ih =>
    obtain ⟨unit, n⟩ := count
    have hcons : ∀ m', (∀ counts, shiftAll sign ((unit, n) :: counts) m = shiftAll sign counts m') →
        shiftAll sign counts m' = .error f → f.classOf = .logic ∨
          f = .tooLarge ∧ Overflows sign ((unit, n) :: counts) m ∨
          f = .longNumber ∧ Reaches IsUnwritable sign ((unit, n) :: counts) m := by
      intro m' hfirst hrest
      rcases ih hrest with hlogic | ⟨hlarge, hover⟩ | ⟨hlong, hreach⟩
      · exact .inl hlogic
      · exact .inr (.inl ⟨hlarge, overflows_iff.mpr ((overflows_iff.mp hover).cons hfirst)⟩)
      · exact .inr (.inr ⟨hlong, hreach.cons hfirst⟩)
    by_cases hn : n = 0
    · exact hcons m (fun _ => shiftAll_zero hn) ((shiftAll_zero hn).symm.trans h)
    · rw [shiftAll_cons hn] at h
      rcases bind_eq_error h with hshift | ⟨m', hshift, hrest⟩
      · rcases shifted_error hshift with hlogic | ⟨hlarge, hover⟩ | ⟨hlong, hdigits⟩
        · exact .inl hlogic
        · rw [natAbs_sign_mul hsign] at hover
          exact .inr (.inl ⟨hlarge, overflows_iff.mpr (.head hover counts m)⟩)
        · rw [natAbs_sign_mul hsign] at hdigits
          exact .inr (.inr ⟨hlong, .head hdigits counts m⟩)
      · refine hcons m' (fun counts => ?_) hrest
        rw [shiftAll_cons hn, hshift]
        rfl

/-- What refuses the count that is reached refuses the whole. -/
theorem Reaches.shiftAll
    (hsaid : ∀ (unit : Component) (n : Nat) (m : Moment), said unit n →
      n ≠ 0 ∧ m.shifted unit (sign * n) = (.error f : Except Fault Moment))
    (h : Reaches said sign counts m) : Version.shiftAll sign counts m = .error f := by
  obtain ⟨before, unit, n, after, m', rfl, hbefore, hcount⟩ := h
  -- on the counts that come before the one that is refused
  induction before generalizing m with
  | nil =>
    obtain ⟨hn, hshift⟩ := hsaid unit n m hcount
    rw [List.nil_append, shiftAll_cons hn, hshift]
    rfl
  | cons count before ih =>
    obtain ⟨unit', n'⟩ := count
    by_cases hn : n' = 0
    · rw [List.cons_append, shiftAll_zero hn]
      exact ih ((shiftAll_zero hn).symm.trans hbefore)
    · rw [shiftAll_cons hn] at hbefore
      obtain ⟨m'', hshift, hrest⟩ := bind_eq_ok hbefore
      rw [List.cons_append, shiftAll_cons hn, hshift]
      exact ih hrest

theorem Overflows.shiftAll (hsign : sign.natAbs = 1) (h : Overflows sign counts m) :
    Version.shiftAll sign counts m = .error .tooLarge := by
  refine Reaches.shiftAll (fun unit n m hover => ⟨?_, shifted_of_large hover.1 ?_ m⟩)
    (overflows_iff.mp h)
  · exact Nat.ne_of_gt (Nat.lt_of_lt_of_le floatLimit_pos hover.2)
  · rw [natAbs_sign_mul hsign]
    exact hover.2

/-- A moment that was moved may still lie before the first version. -/
theorem shiftAll_ofMoment_error (hsign : sign.natAbs = 1)
    (h : shiftAll sign counts m >>= ofMoment = .error f) :
    f.classOf = .logic ∨ f = .tooLarge ∧ Overflows sign counts m ∨
      f = .longNumber ∧ Reaches IsUnwritable sign counts m := by
  rcases bind_eq_error h with hshift | ⟨m', -, hmoment⟩
  · exact shiftAll_error hsign hshift
  · exact .inl (ofMoment_error hmoment)

end

variable {v : Version} {d : Duration} {f : Fault}

theorem addDuration_error (h : v.addDuration d = .error f) :
    f.classOf = .logic ∨ f = .tooLarge ∧ Overflows 1 d.amounts v.moment ∨
      f = .longNumber ∧ Reaches IsUnwritable 1 d.amounts v.moment :=
  shiftAll_ofMoment_error rfl h

theorem minusDuration_error (h : v.minusDuration d = .error f) :
    f.classOf = .logic ∨ f = .tooLarge ∧ Overflows (-1) d.amounts v.moment ∨
      f = .longNumber ∧ Reaches IsUnwritable (-1) d.amounts v.moment :=
  shiftAll_ofMoment_error rfl h

theorem Overflows.addDuration (h : Overflows 1 d.amounts v.moment) :
    v.addDuration d = .error .tooLarge := by
  rw [Version.addDuration, h.shiftAll rfl]
  rfl

theorem Overflows.minusDuration (h : Overflows (-1) d.amounts v.moment) :
    v.minusDuration d = .error .tooLarge := by
  rw [Version.minusDuration, h.shiftAll rfl]
  rfl

end Version

end DateSpan
