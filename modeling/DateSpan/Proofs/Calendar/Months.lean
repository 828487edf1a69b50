import DateSpan.Proofs.Calendar.Reading
import Mathlib.Order.Monotone.Basic

/-! Months, counted from January of year 1, and moves by whole months. An instant is the start of its
month and a time after it, and a move keeps that time. -/

namespace DateSpan.Calendar

/-! ## Starts of months -/

theorem total_append (ls ms : List Nat) : total (ls ++ ms) = total ls + total ms := by
  induction ls with
  | nil => exact (Nat.zero_add _).symm
  | cons l ls ih => rw [List.cons_append, total_cons, total_cons, ih, Nat.add_assoc]

theorem daysBeforeMonth_succ {year month : Nat} (h₁ : 1 ≤ month) (h₂ : month ≤ 12) :
    daysBeforeMonth year (month + 1) = daysBeforeMonth year month + daysInMonth year month := by
  obtain ⟨k, rfl⟩ := Nat.exists_eq_add_of_le' h₁
  have hlength : (monthLengths year)[k]? = some (daysInMonth year (k + 1)) :=
    getElem?_monthLengths.mpr ⟨by omega, rfl⟩
  rw [daysBeforeMonth, daysBeforeMonth, Nat.add_sub_cancel, Nat.add_sub_cancel, List.take_add_one,
    hlength, total_append]
  rfl

theorem daysBeforeMonth_thirteen (year : Nat) : daysBeforeMonth year 13 = daysInYear year := by
  rw [← total_monthLengths]
  rfl

/-- Seconds before a month. -/
def monthStart (n : Nat) : Nat :=
  86400 * (daysBeforeYear (n / 12 + 1) + daysBeforeMonth (n / 12 + 1) (n % 12 + 1))

theorem monthStart_succ (n : Nat) :
    monthStart (n + 1) = monthStart n + 86400 * daysInMonth (n / 12 + 1) (n % 12 + 1) := by
  have hmonth : daysBeforeMonth (n / 12 + 1) (n % 12 + 1 + 1) = _ :=
    daysBeforeMonth_succ (by omega) (by omega)
  unfold monthStart
  by_cases hlast : n % 12 = 11
  · have hyear : (n + 1) / 12 = n / 12 + 1 := by omega
    have hfirst : (n + 1) % 12 = 0 := by omega
    have hzero : daysBeforeMonth (n / 12 + 1 + 1) (0 + 1) = 0 := rfl
    rw [hlast, daysBeforeMonth_thirteen] at hmonth
    rw [hyear, hfirst, hlast, hzero, daysBeforeYear_succ (Nat.le_add_left 1 _), hmonth]
    omega
  · have hyear : (n + 1) / 12 = n / 12 := by omega
    have hnext : (n + 1) % 12 = n % 12 + 1 := by omega
    rw [hyear, hnext, hmonth]
    omega

theorem monthStart_strictMono : StrictMono monthStart := by
  apply strictMono_nat_of_lt_succ
  intro n
  have := daysInMonth_ge (n / 12 + 1) (n % 12 + 1)
  rw [monthStart_succ]
  omega

/-- No month is as long as the next two together. -/
theorem monthStart_add_lt (n : Nat) : monthStart n + 86400 * 31 < monthStart (n + 2) := by
  have := daysInMonth_ge (n / 12 + 1) (n % 12 + 1)
  have := daysInMonth_ge ((n + 1) / 12 + 1) ((n + 1) % 12 + 1)
  rw [monthStart_succ, monthStart_succ]
  omega

/-- Months of the years 1 to 9999. -/
def calendarMonths : Nat := 119988

theorem monthStart_calendarMonths : monthStart calendarMonths = calendarSeconds := rfl

/-! ## Instants within months -/

namespace Civil

/-- Months before that of a reading. -/
def monthNumber (c : Civil) : Nat :=
  12 * (c.year - 1) + (c.month - 1)

/-- Seconds from the start of its month to a reading. -/
def sinceMonth (c : Civil) : Nat :=
  86400 * (c.day - 1) + c.secondOfDay

theorem Valid.monthNumber_year {c : Civil} (h : c.Valid) : c.monthNumber / 12 + 1 = c.year := by
  have hyear := h.year
  have hmonth := h.month
  unfold monthNumber
  omega

theorem Valid.monthNumber_month {c : Civil} (h : c.Valid) : c.monthNumber % 12 + 1 = c.month := by
  have hyear := h.year
  have hmonth := h.month
  unfold monthNumber
  omega

theorem Valid.monthNumber_lt {c : Civil} (h : c.Valid) : c.monthNumber < calendarMonths := by
  have hyear := h.year
  have hmonth := h.month
  unfold monthNumber calendarMonths
  omega

theorem Valid.seconds_eq {c : Civil} (h : c.Valid) :
    c.seconds = monthStart c.monthNumber + c.sinceMonth := by
  rw [monthStart, h.monthNumber_year, h.monthNumber_month, seconds, dayNumber, sinceMonth]
  omega

theorem Valid.sinceMonth_lt {c : Civil} (h : c.Valid) :
    c.sinceMonth < 86400 * daysInMonth c.year c.month := by
  have hday := h.day
  have := h.secondOfDay_lt
  unfold sinceMonth
  omega

end Civil

namespace Instant

theorem eq_of_seconds {i j : Instant} (h : i.seconds = j.seconds) : i = j := by
  cases i
  cases j
  simpa using h

theorem civil_valid (i : Instant) : i.civil.Valid :=
  (Civil.ofSeconds_spec i.inCalendar).1

theorem civil_seconds (i : Instant) : i.civil.seconds = i.seconds :=
  (Civil.ofSeconds_spec i.inCalendar).2

/-- Months from January of year 1 to the month of an instant. -/
def monthNumber (i : Instant) : Nat :=
  i.civil.monthNumber

/-- Seconds from the start of its month to an instant. -/
def sinceMonth (i : Instant) : Nat :=
  i.civil.sinceMonth

theorem seconds_eq (i : Instant) : i.seconds = monthStart i.monthNumber + i.sinceMonth := by
  rw [← i.civil_seconds, i.civil_valid.seconds_eq]
  rfl

theorem sinceMonth_lt (i : Instant) : i.sinceMonth < 86400 * 31 := by
  have hlt := i.civil_valid.sinceMonth_lt
  have := daysInMonth_le i.civil.year i.civil.month
  unfold sinceMonth
  omega

theorem lt_monthStart (i : Instant) : i.seconds < monthStart (i.monthNumber + 1) := by
  have hlt : i.sinceMonth < 86400 * daysInMonth i.civil.year i.civil.month :=
    i.civil_valid.sinceMonth_lt
  rw [monthStart_succ, monthNumber, i.civil_valid.monthNumber_year, i.civil_valid.monthNumber_month,
    ← monthNumber, i.seconds_eq]
  omega

theorem monthNumber_lt (i : Instant) : i.monthNumber < calendarMonths :=
  i.civil_valid.monthNumber_lt

/-- The month of an instant is the one that it lies in. -/
theorem monthNumber_lt_iff (i : Instant) (n : Nat) :
    i.monthNumber < n ↔ i.seconds < monthStart n := by
  constructor
  · intro h
    exact Nat.lt_of_lt_of_le i.lt_monthStart (monthStart_strictMono.monotone h)
  · intro h
    have hstart := i.seconds_eq
    exact monthStart_strictMono.lt_iff_lt.mp (by omega)

/-! ## Moves -/

theorem ofSeconds?_eq_some {n : Int} {i : Instant} : ofSeconds? n = some i ↔ n = i.seconds := by
  have hi := i.inCalendar
  unfold ofSeconds?
  split
  · rename_i h
    rw [Option.some.injEq]
    constructor
    · rintro rfl
      exact (Int.toNat_of_nonneg h.1).symm
    · rintro rfl
      exact eq_of_seconds (Int.toNat_natCast _)
  · rename_i h
    refine ⟨fun hn => (Option.some_ne_none i hn.symm).elim, fun hn => (h ?_).elim⟩
    omega

theorem shiftSeconds_eq_some {i j : Instant} {n : Int} :
    i.shiftSeconds n = some j ↔ (j.seconds : Int) = i.seconds + n :=
  ofSeconds?_eq_some.trans eq_comm

/-- Moves by whole months. The time since the start of the month is kept, so a day that the target
lacks falls into the month after it. -/
def shiftMonths (i : Instant) (k : Int) : Option Instant :=
  let target := i.monthNumber + k
  if 0 ≤ target ∧ target < calendarMonths then
    ofSeconds? (monthStart target.toNat + i.sinceMonth)
  else none

theorem shiftMonths_eq_some {i j : Instant} {k : Int} :
    i.shiftMonths k = some j ↔ ∃ n < calendarMonths, (n : Int) = i.monthNumber + k ∧
      j.seconds = monthStart n + i.sinceMonth := by
  unfold shiftMonths
  dsimp only
  split
  · rename_i h
    rw [ofSeconds?_eq_some]
    constructor
    · intro hj
      exact ⟨(i.monthNumber + k).toNat, by omega, by omega, by omega⟩
    · rintro ⟨n, -, hn, hj⟩
      have htarget : (i.monthNumber + k).toNat = n := by omega
      rw [htarget]
      omega
  · rename_i h
    constructor
    · intro hj
      cases hj
    · rintro ⟨n, hn, htarget, -⟩
      exact absurd ⟨by omega, by omega⟩ h

/-- An instant that the day spills over from is in the month after the target, any other is in the
target. -/
theorem monthNumber_of_shiftMonths {i j : Instant} {k : Int} (h : i.shiftMonths k = some j) :
    (j.monthNumber : Int) = i.monthNumber + k ∨ (j.monthNumber : Int) = i.monthNumber + k + 1 := by
  obtain ⟨n, -, hn, hj⟩ := shiftMonths_eq_some.mp h
  have hshort := i.sinceMonth_lt
  have hspan := monthStart_add_lt n
  have hhigh : j.monthNumber < n + 2 := (j.monthNumber_lt_iff _).mpr (by omega)
  have hlow : ¬ j.monthNumber < n := (j.monthNumber_lt_iff _).not.mpr (by omega)
  omega

end Instant

end DateSpan.Calendar
