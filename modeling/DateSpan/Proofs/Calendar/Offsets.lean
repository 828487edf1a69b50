import DateSpan.Calendar.Offset
import DateSpan.Proofs.Calendar.Months

/-! Moves by offsets. However the counts of an offset are carried, it adds up to the same months and the
same seconds, so that a move is one by months or one by seconds. -/

namespace DateSpan.Calendar

/-! ## Carrying -/

namespace Offset

theorem carried_time (o : Offset) : o.carried.time = o.time := by
  have hseconds := Int.mul_tdiv_add_tmod o.seconds 60
  have hminutes := Int.mul_tdiv_add_tmod (o.minutes + o.seconds.tdiv 60) 60
  have hhours := Int.mul_tdiv_add_tmod (o.hours + (o.minutes + o.seconds.tdiv 60).tdiv 60) 24
  simp only [time, carried]
  omega

theorem carried_months (o : Offset) :
    12 * o.carried.years + o.carried.months = 12 * o.years + o.months := by
  have hmonths := Int.mul_tdiv_add_tmod o.months 12
  simp only [carried]
  omega

theorem carried_months_lt (o : Offset) : o.carried.months.natAbs < 12 := by
  have hmonths : (o.months.tmod 12).natAbs = o.months.natAbs % 12 := Int.natAbs_tmod o.months 12
  simp only [carried]
  omega

end Offset

/-! ## Months -/

namespace Civil

variable {c : Civil} {o : Offset}

/-- The reading at the same day and time of another month, or at the last day of that month. -/
def inMonth (c : Civil) (n : Nat) : Civil :=
  { c with
    year := n / 12 + 1
    month := n % 12 + 1
    day := min c.day (daysInMonth (n / 12 + 1) (n % 12 + 1)) }

/-- The months of an offset lead to the month so many months away, if it is in the calendar. -/
theorem addMonths_eq_some (hc : c.Valid) (ho : o.months.natAbs < 12) {d : Civil} :
    c.addMonths o = some d ↔ ∃ n < calendarMonths,
      (n : Int) = c.monthNumber + (12 * o.years + o.months) ∧ d = c.inMonth n := by
  have hyear := hc.year
  have hmonth := hc.month
  have hnumber : (c.monthNumber : Int) = 12 * (c.year - 1) + (c.month - 1) := by
    unfold monthNumber
    omega
  -- The three branches carry into the year after, into the year before, or not at all.
  obtain ⟨y, mo, hbranch, hmo, htarget⟩ : ∃ y mo : Int,
      (if 12 < c.month + o.months then (c.year + o.years + 1, c.month + o.months - 12)
        else if c.month + o.months < 1 then (c.year + o.years - 1, c.month + o.months + 12)
        else (c.year + o.years, c.month + o.months)) = (y, mo) ∧ (1 ≤ mo ∧ mo ≤ 12) ∧
      12 * (y - 1) + (mo - 1) = c.monthNumber + (12 * o.years + o.months) := by
    split
    · exact ⟨_, _, rfl, by omega, by omega⟩
    · split
      · exact ⟨_, _, rfl, by omega, by omega⟩
      · exact ⟨_, _, rfl, by omega, by omega⟩
  simp only [addMonths, hbranch, calendarMonths, inMonth]
  split
  · rename_i hy
    have hn : (12 * (y - 1) + (mo - 1)).toNat / 12 + 1 = y.toNat ∧
        (12 * (y - 1) + (mo - 1)).toNat % 12 + 1 = mo.toNat := by
      omega
    rw [Option.some.injEq]
    constructor
    · rintro rfl
      refine ⟨(12 * (y - 1) + (mo - 1)).toNat, by omega, by omega, ?_⟩
      rw [hn.1, hn.2]
    · rintro ⟨n, -, hn', rfl⟩
      obtain rfl : n = (12 * (y - 1) + (mo - 1)).toNat := by omega
      rw [hn.1, hn.2]
  · rename_i hy
    constructor
    · intro h
      cases h
    · rintro ⟨n, hn, hn', -⟩
      exact absurd ⟨by omega, by omega⟩ hy

theorem inMonth_seconds (c : Civil) (n : Nat) : (c.inMonth n).seconds =
    monthStart n + 86400 * ((c.inMonth n).day - 1) + c.secondOfDay := by
  simp only [inMonth, seconds, dayNumber, secondOfDay, monthStart]
  omega

theorem Valid.inMonth_monthNumber (hc : c.Valid) : c.inMonth c.monthNumber = c := by
  have hday : min c.day (daysInMonth c.year c.month) = c.day := Nat.min_eq_left hc.day.2
  rw [inMonth, hc.monthNumber_year, hc.monthNumber_month, hday]

theorem add_eq_some (hc : c.Valid) (ho : o.months.natAbs < 12) {j : Instant} :
    c.add o = some j ↔ ∃ n < calendarMonths,
      (n : Int) = c.monthNumber + (12 * o.years + o.months) ∧
        (j.seconds : Int) = (c.inMonth n).seconds + o.time := by
  rw [add, Option.bind_eq_bind, Option.bind_eq_some_iff]
  constructor
  · rintro ⟨d, hd, hj⟩
    obtain ⟨n, hn, hmonths, rfl⟩ := (addMonths_eq_some hc ho).mp hd
    exact ⟨n, hn, hmonths, (Instant.ofSeconds?_eq_some.mp hj).symm⟩
  · rintro ⟨n, hn, hmonths, hj⟩
    exact ⟨_, (addMonths_eq_some hc ho).mpr ⟨n, hn, hmonths, rfl⟩,
      Instant.ofSeconds?_eq_some.mpr hj.symm⟩

end Civil

/-! ## Moves -/

/-- Seconds of a unit that is always of one length. -/
def Component.length? : Component → Option Nat
  | year | month => none
  | day => some 86400
  | hour => some 3600
  | minute => some 60
  | second => some 1

theorem Component.length_pos {unit : Component} {length : Nat} (h : unit.length? = some length) :
    0 < length := by
  cases unit <;> cases h <;> decide

namespace Instant

theorem firstOfMonth_valid (i : Instant) : ({ i.civil with day := 1 } : Civil).Valid := by
  obtain ⟨hyear, hmonth, -, hhour, hminute, hsecond⟩ := i.civil_valid
  have hdays := one_le_daysInMonth i.civil.year i.civil.month
  exact ⟨hyear, hmonth, ⟨Nat.le_refl 1, hdays⟩, hhour, hminute, hsecond⟩

/-- An offset of months alone, added to the first of the month and the days of the month after it. -/
theorem add_months (i : Instant) {o : Offset} (ho : o.months.natAbs < 12) (htime : o.time = 0) :
    (({ i.civil with day := 1 } : Civil).add o >>= fun first =>
      ofSeconds? (first.seconds + 86400 * (i.civil.day - 1 : Nat))) =
      i.shiftMonths (12 * o.years + o.months) := by
  have hvalid := i.firstOfMonth_valid
  have hfirst : ∀ n, (({ i.civil with day := 1 } : Civil).inMonth n).seconds =
      monthStart n + i.civil.secondOfDay := by
    intro n
    have hday : (({ i.civil with day := 1 } : Civil).inMonth n).day = 1 :=
      Nat.min_eq_left (one_le_daysInMonth _ _)
    rw [Civil.inMonth_seconds, hday]
    rfl
  have hsince : i.sinceMonth = 86400 * (i.civil.day - 1) + i.civil.secondOfDay := rfl
  apply Option.ext
  intro j
  rw [Option.bind_eq_bind, Option.bind_eq_some_iff, shiftMonths_eq_some]
  constructor
  · rintro ⟨first, hadd, hj⟩
    obtain ⟨n, hn, hmonths, hseconds⟩ := (Civil.add_eq_some hvalid ho).mp hadd
    rw [hfirst, htime] at hseconds
    rw [ofSeconds?_eq_some] at hj
    exact ⟨n, hn, hmonths, by omega⟩
  · rintro ⟨n, hn, hmonths, hj⟩
    obtain ⟨first, hseconds⟩ : ∃ first : Instant,
        first.seconds = monthStart n + i.civil.secondOfDay := by
      have hin := j.inCalendar
      exact ⟨⟨_, by omega⟩, rfl⟩
    refine ⟨first, (Civil.add_eq_some hvalid ho).mpr ⟨n, hn, hmonths, ?_⟩, ?_⟩
    · rw [hfirst, htime]
      omega
    · rw [ofSeconds?_eq_some]
      omega

/-- An offset without years and months adds its seconds. -/
theorem add_time (i : Instant) {o : Offset} (hyears : o.years = 0) (hmonths : o.months = 0) :
    i.civil.add o = i.shiftSeconds o.time := by
  have hsame := i.civil_valid.inMonth_monthNumber
  have hseconds := i.civil_seconds
  apply Option.ext
  intro j
  rw [Civil.add_eq_some i.civil_valid (by omega), shiftSeconds_eq_some]
  constructor
  · rintro ⟨n, -, hn, hj⟩
    obtain rfl : n = i.civil.monthNumber := by omega
    rw [hsame] at hj
    omega
  · intro hj
    refine ⟨_, i.civil_valid.monthNumber_lt, by omega, ?_⟩
    rw [hsame]
    omega

theorem shift_month (i : Instant) (n : Int) : i.shift .month n = i.shiftMonths n := by
  have hmonths := (Offset.single .month n).carried_months
  have htime := (Offset.single .month n).carried_time
  have htarget : 12 * (Offset.single .month n).carried.years +
      (Offset.single .month n).carried.months = n := by
    simpa only [Offset.single, Int.mul_zero, Int.zero_add] using hmonths
  rw [shift, i.add_months (Offset.carried_months_lt _) htime, htarget]

theorem shift_year (i : Instant) (n : Int) : i.shift .year n = i.shiftMonths (12 * n) := by
  have hmonths := (Offset.single .year n).carried_months
  have htime := (Offset.single .year n).carried_time
  have htarget : 12 * (Offset.single .year n).carried.years +
      (Offset.single .year n).carried.months = 12 * n := by
    simpa only [Offset.single, Int.add_zero] using hmonths
  rw [shift, i.add_months (Offset.carried_months_lt _) htime, htarget]

theorem shift_of_length {unit : Component} {length : Nat} (h : unit.length? = some length)
    (i : Instant) (n : Int) : i.shift unit n = i.shiftSeconds (length * n) := by
  have hcarried := (Offset.single unit n).carried_time
  have htime : (Offset.single unit n).time = length * n := by
    cases unit <;> cases h <;> simp [Offset.single, Offset.time]
  cases unit with
  | year => cases h
  | month => cases h
  | _ =>
    rw [← htime, ← hcarried]
    exact i.add_time rfl rfl

theorem shiftMonths_zero (i : Instant) : i.shiftMonths 0 = some i :=
  shiftMonths_eq_some.mpr ⟨_, i.monthNumber_lt, (Int.add_zero _).symm, i.seconds_eq⟩

theorem shiftSeconds_zero (i : Instant) : i.shiftSeconds 0 = some i :=
  shiftSeconds_eq_some.mpr (Int.add_zero _).symm

theorem shift_zero (i : Instant) (unit : Component) : i.shift unit 0 = some i := by
  cases h : unit.length? with
  | some length => rw [shift_of_length h, Int.mul_zero, shiftSeconds_zero]
  | none =>
    cases unit with
    | year => rw [shift_year, Int.mul_zero, shiftMonths_zero]
    | month => rw [shift_month, shiftMonths_zero]
    | _ => cases h

/-- The calendar bounds the amounts that lead from one instant to another. -/
theorem natAbs_lt_of_shift {i j : Instant} {unit : Component} {amount : Int}
    (h : i.shift unit amount = some j) : amount.natAbs < calendarSeconds := by
  have hmonths : ∀ {k : Int}, i.shiftMonths k = some j → k.natAbs < calendarSeconds := by
    intro k hk
    obtain ⟨n, hn, htarget, -⟩ := shiftMonths_eq_some.mp hk
    have hstart := i.monthNumber_lt
    unfold calendarMonths at hn hstart
    unfold calendarSeconds
    omega
  cases hlength : unit.length? with
  | some length =>
    rw [shift_of_length hlength, shiftSeconds_eq_some] at h
    have hi := i.inCalendar
    have hj := j.inCalendar
    have hone : 1 * amount.natAbs ≤ length * amount.natAbs :=
      Nat.mul_le_mul_right _ (Component.length_pos hlength)
    have hproduct : ((length : Int) * amount).natAbs = length * amount.natAbs := Int.natAbs_mul ..
    omega
  | none =>
    cases unit with
    | year =>
      rw [shift_year] at h
      have hyears := hmonths h
      omega
    | month =>
      rw [shift_month] at h
      exact hmonths h
    | _ => cases hlength

end Instant

end DateSpan.Calendar
