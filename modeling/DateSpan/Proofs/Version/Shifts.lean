import DateSpan.Proofs.Range.Members
import DateSpan.Proofs.Version.Moves
import DateSpan.Version.Coercion
import Mathlib.Algebra.Group.Int.Defs
import Mathlib.Algebra.Group.Nat.Defs

/-! Shifts by one component. A shift by months keeps the day and the time, and a day that the month
lacks falls into the month after it; a shift by any other component adds its seconds. Where the
calendar ends before, the shift is refused, unless the amount is too large for that. -/

namespace DateSpan

open Calendar

/-! ## Outcomes -/

/-- The outcome is a fault of what was asked for. -/
def Refused {α : Type} (x : Except Fault α) : Prop :=
  ∃ f, x = .error f ∧ f.classOf = .logic

/-- The outcome is a fault of another kind. -/
def Misreported {α : Type} (x : Except Fault α) : Prop :=
  ∃ f, x = .error f ∧ f.classOf ≠ .logic

/-- Both outcomes are the same value, or both refuse what was asked for. -/
def SameOutcome {α : Type} (x y : Except Fault α) : Prop :=
  (∃ a, x = .ok a ∧ y = .ok a) ∨ Refused x ∧ Refused y

section

variable {α β : Type} {x y : Except Fault α}

theorem refused_iff : Refused x ↔ (¬ ∃ a, x = .ok a) ∧ ¬ Misreported x := by
  cases x with
  | ok a =>
    refine iff_of_false ?_ fun h => h.1 ⟨a, rfl⟩
    rintro ⟨f, hf, -⟩
    cases hf
  | error f =>
    constructor
    · rintro ⟨f', hf', hclass⟩
      cases hf'
      refine ⟨nofun, ?_⟩
      rintro ⟨f', hf', hother⟩
      cases hf'
      exact hother hclass
    · rintro ⟨-, hclass⟩
      exact ⟨f, rfl, Decidable.of_not_not fun hother => hclass ⟨f, rfl, hother⟩⟩

theorem not_misreported_ok (a : α) : ¬ Misreported (.ok a : Except Fault α) := by
  rintro ⟨f, hf, -⟩
  cases hf

/-- Outcomes of the same values differ only where one of them is misreported. -/
theorem sameOutcome_iff (hok : ∀ a, x = .ok a ↔ y = .ok a) :
    SameOutcome x y ↔ ¬ Misreported x ∧ ¬ Misreported y := by
  constructor
  · rintro (⟨a, rfl, rfl⟩ | ⟨hx, hy⟩)
    · exact ⟨not_misreported_ok a, not_misreported_ok a⟩
    · exact ⟨(refused_iff.mp hx).2, (refused_iff.mp hy).2⟩
  · rintro ⟨hx, hy⟩
    by_cases h : ∃ a, x = .ok a
    · obtain ⟨a, ha⟩ := h
      exact .inl ⟨a, ha, (hok a).mp ha⟩
    · have hy' : ¬ ∃ a, y = .ok a := fun ⟨a, ha⟩ => h ⟨a, (hok a).mpr ha⟩
      exact .inr ⟨refused_iff.mpr ⟨h, hx⟩, refused_iff.mpr ⟨hy', hy⟩⟩

theorem misreported_bind {f : α → Except Fault β} :
    Misreported (x >>= f) ↔ Misreported x ∨ ∃ a, x = .ok a ∧ Misreported (f a) := by
  cases x with
  | error g =>
    have hbind : (Except.error g >>= f) = Except.error g := rfl
    rw [hbind]
    constructor
    · rintro ⟨g', hg', hclass⟩
      cases hg'
      exact .inl ⟨g, rfl, hclass⟩
    · rintro (⟨g', hg', hclass⟩ | ⟨a, ha, -⟩)
      · cases hg'
        exact ⟨g, rfl, hclass⟩
      · cases ha
  | ok a =>
    change Misreported (f a) ↔ _
    constructor
    · intro h
      exact .inr ⟨a, rfl, h⟩
    · rintro (h | ⟨a', ha', h⟩)
      · exact absurd h (not_misreported_ok a)
      · cases ha'
        exact h

end

/-! ## Months -/

namespace Calendar

namespace Civil

/-- A month of a year that lies so many months after that of a reading. -/
structure MonthAfter (c : Civil) (n year month : Int) : Prop where
  isMonth : 1 ≤ month ∧ month ≤ 12
  distance : 12 * year + month = 12 * c.year + c.month + n

/-- The same day and time of another month. A day that the month lacks is a day of the month after it,
by as much as the month is too short. -/
def spilled (c : Civil) (year month : Nat) : Civil :=
  if c.day ≤ daysInMonth year month then { c with year, month }
  else { c with year, month := month + 1, day := c.day - daysInMonth year month }

variable {c : Civil} {year month : Nat}

theorem spilled_of_le (h : c.day ≤ daysInMonth year month) :
    c.spilled year month = { c with year, month } :=
  if_pos h

theorem spilled_of_lt (h : daysInMonth year month < c.day) :
    c.spilled year month =
      { c with year, month := month + 1, day := c.day - daysInMonth year month } :=
  if_neg (Nat.not_le.mpr h)

/-- December lacks no day, so that the month after it is not needed. -/
theorem Valid.ne_december (h : c.Valid) (hday : daysInMonth year month < c.day) : month ≠ 12 := by
  rintro rfl
  have hlong := daysInMonth_le c.year c.month
  have hdecember : daysInMonth year 12 = 31 := rfl
  have := h.day
  omega

theorem Valid.spilled (h : c.Valid) (hyear : 1 ≤ year ∧ year ≤ 9999)
    (hmonth : 1 ≤ month ∧ month ≤ 12) : (c.spilled year month).Valid := by
  have hday := h.day
  rcases Nat.lt_or_ge (daysInMonth year month) c.day with hlt | hle
  · rw [spilled_of_lt hlt]
    have hdecember := h.ne_december hlt
    have hlong := daysInMonth_le c.year c.month
    have hshort := daysInMonth_ge year month
    have hnext := daysInMonth_ge year (month + 1)
    exact ⟨hyear, by simp only; omega, by simp only; omega, h.hour, h.minute, h.second⟩
  · rw [spilled_of_le hle]
    exact ⟨hyear, hmonth, ⟨hday.1, hle⟩, h.hour, h.minute, h.second⟩

/-- What is kept is the time since the start of the month. -/
theorem Valid.spilled_seconds (h : c.Valid) (hyear : 1 ≤ year ∧ year ≤ 9999)
    (hmonth : 1 ≤ month ∧ month ≤ 12) :
    (c.spilled year month).seconds = monthStart (12 * (year - 1) + (month - 1)) + c.sinceMonth := by
  have hday := h.day
  rw [(h.spilled hyear hmonth).seconds_eq]
  rcases Nat.lt_or_ge (daysInMonth year month) c.day with hlt | hle
  · have hnext : 12 * (year - 1) + (month + 1 - 1) = 12 * (year - 1) + (month - 1) + 1 := by omega
    have hy : (12 * (year - 1) + (month - 1)) / 12 + 1 = year := by omega
    have hm : (12 * (year - 1) + (month - 1)) % 12 + 1 = month := by omega
    rw [spilled_of_lt hlt, monthNumber, hnext, monthStart_succ, hy, hm, sinceMonth, sinceMonth]
    simp only [secondOfDay]
    omega
  · rw [spilled_of_le hle]
    rfl

end Civil

namespace Instant

variable {i : Instant} {n year month : Int}

theorem shiftMonths_of_target (htarget : i.civil.MonthAfter n year month)
    (hyear : 1 ≤ year ∧ year ≤ 9999) :
    ∃ j, i.shiftMonths n = some j ∧ j.civil = i.civil.spilled year.toNat month.toNat := by
  have hmonth := htarget.isMonth
  have hdistance := htarget.distance
  have hstart := i.civil_valid.year
  have hstart' := i.civil_valid.month
  have hyear' : 1 ≤ year.toNat ∧ year.toNat ≤ 9999 := by omega
  have hmonth' : 1 ≤ month.toNat ∧ month.toNat ≤ 12 := by omega
  have hvalid := i.civil_valid.spilled hyear' hmonth'
  refine ⟨⟨_, hvalid.seconds_lt⟩, ?_, Civil.ofSeconds_seconds hvalid⟩
  refine shiftMonths_eq_some.mpr ⟨12 * (year.toNat - 1) + (month.toNat - 1), ?_, ?_,
    i.civil_valid.spilled_seconds hyear' hmonth'⟩
  · unfold calendarMonths
    omega
  · unfold monthNumber Civil.monthNumber
    omega

theorem shiftMonths_eq_none (htarget : i.civil.MonthAfter n year month)
    (hyear : ¬ (1 ≤ year ∧ year ≤ 9999)) : i.shiftMonths n = none := by
  have hmonth := htarget.isMonth
  have hdistance := htarget.distance
  have hstart := i.civil_valid.year
  have hstart' := i.civil_valid.month
  apply Option.eq_none_iff_forall_not_mem.mpr
  intro j hj
  obtain ⟨k, hk, hkn, -⟩ := shiftMonths_eq_some.mp hj
  unfold calendarMonths at hk
  unfold monthNumber Civil.monthNumber at hkn
  omega

end Instant

end Calendar

/-! ## Amounts -/

namespace Version

/-- The amount is too large, or has too many digits to be shown. -/
def IsUnreported (unit : Component) (n : Nat) : Prop :=
  IsOverflow unit n ∨ IsUnwritable unit n

section

variable {unit : Component} {n n' : Nat} {amount : Int} {m r : Moment} {v w : Version}

theorem IsUnreported.floatLimit_le (h : IsUnreported unit n) : floatLimit ≤ n :=
  h.elim And.right IsUnwritable.floatLimit_le

theorem IsUnreported.mono (h : IsUnreported unit n) (hle : n ≤ n') : IsUnreported unit n' := by
  refine h.imp (fun hover => ⟨hover.1, Nat.le_trans hover.2 hle⟩) fun hdigits => ⟨hdigits.1, ?_⟩
  have hlong := hdigits.2
  rw [Text.isWritable, decide_eq_false_iff_not] at hlong ⊢
  exact fun hlt => hlong (Nat.lt_of_le_of_lt hle hlt)

theorem isUnreported_month : IsUnreported .month n ↔ floatLimit ≤ n :=
  ⟨IsUnreported.floatLimit_le, fun h => .inl ⟨rfl, h⟩⟩

theorem shifted_of_unwritable (h : IsUnwritable unit amount.natAbs) (m : Moment) :
    m.shifted unit amount = .error .longNumber := by
  have hcarried : ¬ IsOverflow unit amount.natAbs :=
    fun hover => Bool.false_ne_true (h.1.symm.trans hover.1)
  rw [shifted_of_small hcarried]
  cases hshift : m.instant.shift unit amount with
  | some j =>
    have hbound := Nat.lt_trans (Instant.natAbs_lt_of_shift hshift) calendarSeconds_lt_floatLimit
    exact absurd h.floatLimit_le (Nat.not_le.mpr hbound)
  | none => simp only [h.2, Bool.false_eq_true, if_false]

theorem shiftAll_of_unwritable {sign : Int} {counts : List (Component × Nat)}
    (hsign : sign.natAbs = 1) (h : Reaches IsUnwritable sign counts m) :
    shiftAll sign counts m = .error .longNumber := by
  refine Reaches.shiftAll (fun unit n m hdigits => ⟨?_, shifted_of_unwritable ?_ m⟩) h
  · exact Nat.ne_of_gt (Nat.lt_of_lt_of_le floatLimit_pos hdigits.floatLimit_le)
  · rw [natAbs_sign_mul hsign]
    exact hdigits

theorem shifted_misreported_iff :
    Misreported (m.shifted unit amount) ↔ IsUnreported unit amount.natAbs := by
  constructor
  · rintro ⟨f, hf, hclass⟩
    rcases shifted_error hf with hlogic | ⟨-, hover⟩ | ⟨-, hdigits⟩
    · exact absurd hlogic hclass
    · exact .inl hover
    · exact .inr hdigits
  · rintro (hover | hdigits)
    · exact ⟨_, shifted_of_large hover.1 hover.2 m, nofun⟩
    · exact ⟨_, shifted_of_unwritable hdigits m, nofun⟩

/-- A shift out of the calendar is refused. -/
theorem shifted_refused_iff :
    Refused (m.shifted unit amount) ↔
      m.instant.shift unit amount = none ∧ ¬ IsUnreported unit amount.natAbs := by
  rw [refused_iff, shifted_misreported_iff, Option.eq_none_iff_forall_ne_some]
  refine and_congr_left fun _ => ⟨fun h i hi => h ⟨_, shifted_of_shift hi⟩, ?_⟩
  rintro h ⟨r, hr⟩
  exact h _ (shifted_eq_ok_iff.mp hr).1

end

end Version

namespace Calendar.Moment

open Version

theorem shifted_year_eq_ok_iff {m r : Moment} {n : Int} :
    m.shifted .year n = .ok r ↔ m.shifted .month (12 * n) = .ok r := by
  rw [shifted_eq_ok_iff, shifted_eq_ok_iff, Instant.shift_year, Instant.shift_month]

/-- A shift by months is refused just where the month is outside the years 1 to 9999 and the amount is not
too large; in any other month it finds the day and the time again, or the days of the month after it that
the month is too short by. A shift by years is one by twelve times as many months. -/
theorem shifted_months (m : Moment) (n : Int) {year month : Int}
    (htarget : m.instant.civil.MonthAfter n year month) :
    (Refused (m.shifted .month n) ↔ ¬ (1 ≤ year ∧ year ≤ 9999) ∧ n.natAbs < floatLimit) ∧
    (floatLimit ≤ n.natAbs → m.shifted .month n = .error .tooLarge) ∧
    (1 ≤ year ∧ year ≤ 9999 → ∃ r, m.shifted .month n = .ok r ∧ r.micro = m.micro ∧
      r.instant.civil = m.instant.civil.spilled year.toNat month.toNat) ∧
    (∀ r, m.shifted .year n = .ok r ↔ m.shifted .month (12 * n) = .ok r) ∧
    (SameOutcome (m.shifted .year n) (m.shifted .month (12 * n)) ↔
      (12 * n).natAbs < floatLimit) := by
  refine ⟨?_, fun hlarge => shifted_of_large rfl hlarge m, fun hyear => ?_,
    fun _ => shifted_year_eq_ok_iff, ?_⟩
  · rw [shifted_refused_iff, Instant.shift_month, isUnreported_month, Nat.not_le]
    refine and_congr_left fun _ => ⟨fun hnone hyear => ?_, Instant.shiftMonths_eq_none htarget⟩
    obtain ⟨j, hj, -⟩ := Instant.shiftMonths_of_target htarget hyear
    cases hnone.symm.trans hj
  · obtain ⟨j, hj, hcivil⟩ := Instant.shiftMonths_of_target htarget hyear
    rw [← Instant.shift_month] at hj
    exact ⟨_, shifted_of_shift hj, rfl, hcivil⟩
  · rw [sameOutcome_iff fun _ => shifted_year_eq_ok_iff, shifted_misreported_iff,
      shifted_misreported_iff, isUnreported_month, Nat.not_le]
    refine ⟨And.right, fun hsmall => ⟨fun h => ?_, hsmall⟩⟩
    have hlarge := h.floatLimit_le
    omega

/-- From the last of January 2024 one month leads to the second of March, and ten to the 309th months
are too many. -/
theorem shifted_months_spilled :
    ∃ m : Moment, m.instant.civil = ⟨2024, 1, 31, 12, 30, 15⟩ ∧
      m.instant.civil.MonthAfter 1 2024 2 ∧
      (∃ r, m.shifted .month 1 = .ok r ∧ r.instant.civil = ⟨2024, 3, 2, 12, 30, 15⟩) ∧
      m.instant.civil.MonthAfter (10 ^ 309) (2024 + 10 ^ 309 / 12) 5 ∧
      m.shifted .month (10 ^ 309) = .error .tooLarge := by
  have hcivil : Civil.ofSeconds 63842301015 = ⟨2024, 1, 31, 12, 30, 15⟩ := by decide +kernel
  let m : Moment := ⟨⟨63842301015, by decide⟩, 500000⟩
  have hm : m.instant.civil = ⟨2024, 1, 31, 12, 30, 15⟩ := hcivil
  have hnext : m.instant.civil.MonthAfter 1 2024 2 := by
    rw [hm]
    exact ⟨by decide, by decide⟩
  have hfar : m.instant.civil.MonthAfter (10 ^ 309) (2024 + 10 ^ 309 / 12) 5 := by
    rw [hm]
    exact ⟨by decide, by decide +kernel⟩
  obtain ⟨r, hr, -, hspilled⟩ := (shifted_months m 1 hnext).2.2.1 (by decide)
  rw [hm] at hspilled
  exact ⟨m, hm, hnext, ⟨r, hr, hspilled⟩, hfar,
    (shifted_months m (10 ^ 309) hfar).2.1 (by decide +kernel)⟩

end Calendar.Moment

/-! ## Epochs -/

namespace Version

variable {unit unit' : Component} {length length' n n' : Nat} {amount : Int} {v w : Version}

theorem misreported_iff :
    Misreported (v.shifted unit amount) ↔ IsUnreported unit amount.natAbs := by
  have hmoment : ∀ m, ¬ Misreported (ofMoment m) := by
    rintro m ⟨f, hf, hclass⟩
    exact hclass (ofMoment_error hf)
  rw [shifted, misreported_bind, shifted_misreported_iff]
  apply or_iff_left
  rintro ⟨m, -, hm⟩
  exact hmoment m hm

theorem increment_eq_ok (h : unit.length? = some length) :
    v.increment unit n = .ok w ↔ w.epoch = v.epoch + 1000 * (length * n) := by
  rw [increment, shifted_length_eq_ok h, epoch, epoch]
  omega

theorem decrement_eq_ok (h : unit.length? = some length) :
    v.decrement unit n = .ok w ↔ w.epoch + 1000 * (length * n) = v.epoch := by
  rw [decrement, shifted_length_eq_ok h, Int.mul_neg, epoch, epoch]
  omega

theorem exists_epoch {e : Nat} : (∃ w : Version, w.epoch = 1000 * e) ↔ 1000 * e ≤ final.epoch := by
  have hfinal : final.epoch = 1000 * (versionSeconds - 1) := rfl
  constructor
  · rintro ⟨w, hw⟩
    have := w.inCalendar
    rw [epoch] at hw
    omega
  · intro h
    have hpos : 0 < versionSeconds := by decide
    exact ⟨⟨e, by omega⟩, rfl⟩

theorem exists_increment (h : unit.length? = some length) :
    (∃ w, v.increment unit n = .ok w) ↔ v.epoch + 1000 * (length * n) ≤ final.epoch := by
  have hsum : v.epoch + 1000 * (length * n) = 1000 * (v.seconds + length * n) :=
    (Nat.mul_add ..).symm
  simp only [increment_eq_ok h]
  rw [hsum, exists_epoch]

theorem exists_decrement (h : unit.length? = some length) :
    (∃ w, v.decrement unit n = .ok w) ↔ 1000 * (length * n) ≤ v.epoch := by
  have hv := v.inCalendar
  constructor
  · rintro ⟨w, hw⟩
    rw [decrement_eq_ok h] at hw
    omega
  · intro hle
    have hseconds : length * n ≤ v.seconds := by
      rw [epoch] at hle
      omega
    refine ⟨⟨v.seconds - length * n, by omega⟩, (decrement_eq_ok h).mpr ?_⟩
    simp only [epoch]
    omega

theorem increment_misreported : Misreported (v.increment unit n) ↔ IsUnreported unit n :=
  misreported_iff

theorem decrement_misreported : Misreported (v.decrement unit n) ↔ IsUnreported unit n := by
  rw [decrement, misreported_iff, Int.natAbs_neg, Int.natAbs_natCast]

/-- One shift after another adds both lengths. -/
theorem increments_eq_ok (h : unit.length? = some length) (h' : unit'.length? = some length') :
    v.increment unit n >>= (·.increment unit' n') = .ok w ↔
      w.epoch = v.epoch + 1000 * (length * n + length' * n') := by
  rw [bind_eq_ok_iff]
  constructor
  · rintro ⟨u, hu, hw⟩
    rw [increment_eq_ok h] at hu
    rw [increment_eq_ok h'] at hw
    omega
  · intro hw
    have hbound := exists_epoch.mp ⟨w, (rfl : w.epoch = 1000 * w.seconds)⟩
    have hseconds : w.epoch = 1000 * w.seconds := rfl
    obtain ⟨u, hu⟩ := (exists_increment (v := v) (n := n) h).mpr (by omega)
    have hepoch := (increment_eq_ok h).mp hu
    exact ⟨u, hu, (increment_eq_ok h').mpr (by omega)⟩

theorem increments_misreported (h : IsUnreported unit n) :
    Misreported (v.increment unit n >>= (·.increment unit' n')) :=
  misreported_bind.mpr (.inl (increment_misreported.mpr h))

theorem increments_not_misreported (h : ¬ IsUnreported unit n) (h' : ¬ IsUnreported unit' n') :
    ¬ Misreported (v.increment unit n >>= (·.increment unit' n')) := by
  rw [misreported_bind, increment_misreported, not_or]
  refine ⟨h, ?_⟩
  rintro ⟨u, -, hu⟩
  exact h' (increment_misreported.mp hu)

theorem amountOfDatum_natCast (room : Room) (hn : 0 < n) : amountOfDatum room (.int n) = .ok n :=
  if_neg (by omega)

/-- What shifts by a number of units of one length do. -/
structure ShiftsEpoch (v : Version) (unit : Component) (length n : Nat) : Prop where
  /-- The component and the amount are those that the data name. -/
  named : ∀ room, v.incrementBy room (.text unit.name) (.int n) = v.increment unit n ∧
    v.decrementBy room (.text unit.name) (.int n) = v.decrement unit n
  increment : ∀ w, v.increment unit n = .ok w ↔ w.epoch = v.epoch + 1000 * (length * n)
  decrement : ∀ w, v.decrement unit n = .ok w ↔ w.epoch + 1000 * (length * n) = v.epoch
  increment_exists : (∃ w, v.increment unit n = .ok w) ↔
    v.epoch + 1000 * (length * n) ≤ final.epoch
  decrement_exists : (∃ w, v.decrement unit n = .ok w) ↔ 1000 * (length * n) ≤ v.epoch
  increment_refused : Refused (v.increment unit n) ↔
    final.epoch < v.epoch + 1000 * (length * n) ∧ ¬ IsUnreported unit n
  decrement_refused : Refused (v.decrement unit n) ↔
    v.epoch < 1000 * (length * n) ∧ ¬ IsUnreported unit n
  decrement_increment : ∀ w, v.increment unit n = .ok w → w.decrement unit n = .ok v
  increment_decrement : ∀ w, v.decrement unit n = .ok w → w.increment unit n = .ok v
  compose : ∀ unit' length' n', unit'.length? = some length' → ∀ w,
    v.increment unit n >>= (·.increment unit' n') = .ok w ↔
      w.epoch = v.epoch + 1000 * (length * n + length' * n')
  add : ∀ n', SameOutcome (v.increment unit n >>= (·.increment unit n')) (v.increment unit (n + n')) ↔
    ¬ IsUnreported unit (n + n')
  commute : ∀ unit' n', unit'.length?.isSome →
    (SameOutcome (v.increment unit n >>= (·.increment unit' n'))
      (v.increment unit' n' >>= (·.increment unit n)) ↔
        ¬ IsUnreported unit n ∧ ¬ IsUnreported unit' n')

/-- Shifts by a component of one length add to the epoch, and fail only where they leave the versions. -/
theorem shifts_epoch (h : unit.length? = some length) (hn : 0 < n) (v : Version) :
    v.ShiftsEpoch unit length n where
  named := by
    intro room
    rw [incrementBy, decrementBy, Component.ofDatum_name, amountOfDatum_natCast room hn]
    exact ⟨rfl, rfl⟩
  increment := fun _ => increment_eq_ok h
  decrement := fun _ => decrement_eq_ok h
  increment_exists := exists_increment h
  decrement_exists := exists_decrement h
  increment_refused := by
    rw [refused_iff, exists_increment h, increment_misreported, Nat.not_le]
  decrement_refused := by
    rw [refused_iff, exists_decrement h, decrement_misreported, Nat.not_le]
  decrement_increment := fun w hw =>
    (decrement_eq_ok h).mpr ((increment_eq_ok h).mp hw).symm
  increment_decrement := fun w hw =>
    (increment_eq_ok h).mpr ((decrement_eq_ok h).mp hw).symm
  compose := fun _ _ _ h' _ => increments_eq_ok h h'
  add := by
    intro n'
    have hok : ∀ w, v.increment unit n >>= (·.increment unit n') = .ok w ↔
        v.increment unit (n + n') = .ok w := by
      intro w
      rw [increments_eq_ok h h, increment_eq_ok h, ← Nat.mul_add]
    rw [sameOutcome_iff hok, increment_misreported]
    refine ⟨And.right, fun hsum => ⟨increments_not_misreported ?_ ?_, hsum⟩⟩
    · exact fun hn => hsum (hn.mono (Nat.le_add_right n n'))
    · exact fun hn' => hsum (hn'.mono (Nat.le_add_left n' n))
  commute := by
    intro unit' n' h'
    obtain ⟨length', hlength'⟩ := Option.isSome_iff_exists.mp h'
    have hok : ∀ w, v.increment unit n >>= (·.increment unit' n') = .ok w ↔
        v.increment unit' n' >>= (·.increment unit n) = .ok w := by
      intro w
      rw [increments_eq_ok h hlength', increments_eq_ok hlength' h, Nat.add_comm (length * n)]
    rw [sameOutcome_iff hok]
    constructor
    · exact And.imp (mt increments_misreported) (mt increments_misreported)
    · rintro ⟨hn, hn'⟩
      exact ⟨increments_not_misreported hn hn', increments_not_misreported hn' hn⟩

/-- A day and an hour after the last of February 2023, and ten to the 309th hours. -/
theorem shifts_epoch_hours :
    Component.hour.length? = some 3600 ∧ 0 < 25 ∧
      (∃ v w : Version, v.increment .hour 25 = .ok w ∧ w.epoch = v.epoch + 90000000 ∧
        v.civil = ⟨2023, 2, 28, 23, 30, 0⟩ ∧ w.decrement .hour 25 = .ok v) ∧
      ∀ v : Version, ¬ Refused (v.increment .hour (10 ^ 309)) := by
  have hcivil : Civil.ofSeconds (1677627000 + epochStart) = ⟨2023, 2, 28, 23, 30, 0⟩ := by
    decide +kernel
  have hlimit : IsUnreported .hour (10 ^ 309) := .inl ⟨rfl, by decide +kernel⟩
  refine ⟨rfl, by decide, ?_, fun v hrefused => ?_⟩
  · have hshifts : ShiftsEpoch ⟨1677627000, by decide⟩ .hour 3600 25 :=
      shifts_epoch rfl (by decide) _
    obtain ⟨w, hw⟩ := hshifts.increment_exists.mpr (by decide)
    exact ⟨_, w, hw, (hshifts.increment w).mp hw, hcivil, hshifts.decrement_increment w hw⟩
  · have hshifts : v.ShiftsEpoch .hour 3600 (10 ^ 309) := shifts_epoch rfl (by decide +kernel) v
    exact (hshifts.increment_refused.mp hrefused).2 hlimit

end Version

end DateSpan
