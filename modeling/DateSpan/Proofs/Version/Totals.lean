import DateSpan.Proofs.Version.Shifts

/-! Durations of the same length. Days, hours, minutes and seconds add up to the same moment in whatever
units they are counted, since every step on the way lies between the start and the end. -/

namespace DateSpan

open Calendar

/-- Seconds of the days and of the time. -/
def Duration.time (d : Duration) : Nat :=
  86400 * d.days + 3600 * d.hours + 60 * d.minutes + d.seconds

namespace Version

variable {sign : Int} {counts : List (Component × Nat)} {m r : Moment}

/-! ## Seconds -/

/-- Seconds of counts of units that are always of one length. -/
def secondsOf : List (Component × Nat) → Nat
  | [] => 0
  | (unit, n) :: counts => unit.length?.getD 0 * n + secondsOf counts

theorem secondsOf_fixedCounts (d : Duration) : secondsOf d.fixedCounts = d.time := by
  simp only [secondsOf, Duration.fixedCounts, Component.length?, Duration.time, Option.getD_some]
  omega

theorem moment_shifted_eq_ok {unit : Component} {length : Nat} (h : unit.length? = some length)
    {amount : Int} : m.shifted unit amount = .ok r ↔
      (r.instant.seconds : Int) = m.instant.seconds + length * amount ∧ r.micro = m.micro := by
  rw [shifted_eq_ok_iff, Instant.shift_of_length h, Instant.shiftSeconds_eq_some]

/-- The steps lead to the moment that is all their seconds away, which no step passes. -/
theorem shiftAll_eq_ok_iff (hsign : sign = 1 ∨ sign = -1)
    (hfixed : ∀ c ∈ counts, c.1.length?.isSome) :
    shiftAll sign counts m = .ok r ↔
      (r.instant.seconds : Int) = m.instant.seconds + sign * secondsOf counts ∧
        r.micro = m.micro := by
  induction counts generalizing m with
  | nil =>
    obtain ⟨i, micro⟩ := m
    obtain ⟨j, micro'⟩ := r
    have hnone : sign * (secondsOf [] : Nat) = 0 := Int.mul_zero sign
    rw [shiftAll, Except.ok.injEq, Moment.mk.injEq, hnone]
    constructor
    · rintro ⟨rfl, rfl⟩
      exact ⟨(Int.add_zero _).symm, rfl⟩
    · rintro ⟨hseconds, rfl⟩
      simp only at hseconds
      exact ⟨Instant.eq_of_seconds (by omega), rfl⟩
  | cons count counts ih =>
    obtain ⟨unit, n⟩ := count
    obtain ⟨hunit, hrest⟩ := List.forall_mem_cons.mp hfixed
    obtain ⟨length, hlength⟩ := Option.isSome_iff_exists.mp hunit
    have hsum : secondsOf ((unit, n) :: counts) = length * n + secondsOf counts := by
      rw [secondsOf, hlength, Option.getD_some]
    have hproduct : (length : Int) * (sign * n) = sign * (length * n : Nat) := by
      rw [Int.natCast_mul, Int.mul_left_comm]
    rw [shiftAll_cons_eq, bind_eq_ok_iff, hsum]
    simp only [ih hrest, moment_shifted_eq_ok hlength, hproduct]
    constructor
    · rintro ⟨s, ⟨hs, hsmicro⟩, hr, hrmicro⟩
      refine ⟨?_, hrmicro.trans hsmicro⟩
      rcases hsign with rfl | rfl <;> omega
    · rintro ⟨hr, hmicro⟩
      -- The first step goes no further than the end, so it stays in the calendar.
      have hm := m.instant.inCalendar
      have hend := r.instant.inCalendar
      obtain ⟨k, hk, hlt⟩ : ∃ k : Nat, (k : Int) = m.instant.seconds + sign * (length * n : Nat) ∧
          k < calendarSeconds := by
        rcases hsign with rfl | rfl
        · exact ⟨m.instant.seconds + length * n, by omega, by omega⟩
        · exact ⟨m.instant.seconds - length * n, by omega, by omega⟩
      refine ⟨⟨⟨k, hlt⟩, m.micro⟩, ⟨hk, rfl⟩, ?_, hmicro⟩
      simp only
      rcases hsign with rfl | rfl <;> omega

theorem fixedCounts_isSome (d : Duration) : ∀ c ∈ d.fixedCounts, c.1.length?.isSome := by
  simp [Duration.fixedCounts, Component.length?]

/-- Both durations have as many years and as many months, and the same seconds besides. -/
structure SameLength (d e : Duration) : Prop where
  years : d.years = e.years
  months : d.months = e.months
  time : d.time = e.time

variable {d e : Duration} {v w : Version}

theorem SameLength.shiftAll (h : SameLength d e) (hsign : sign = 1 ∨ sign = -1) :
    Version.shiftAll sign d.amounts m = .ok r ↔ Version.shiftAll sign e.amounts m = .ok r := by
  have hrest : ∀ s, Version.shiftAll sign d.fixedCounts s = .ok r ↔
      Version.shiftAll sign e.fixedCounts s = .ok r := by
    intro s
    rw [shiftAll_eq_ok_iff hsign (fixedCounts_isSome d),
      shiftAll_eq_ok_iff hsign (fixedCounts_isSome e), secondsOf_fixedCounts,
      secondsOf_fixedCounts, h.time]
  rw [d.amounts_eq, e.amounts_eq, h.years, h.months]
  simp only [shiftAll_cons_eq, bind_eq_ok_iff, hrest]

theorem SameLength.addDuration (h : SameLength d e) :
    v.addDuration d = .ok w ↔ v.addDuration e = .ok w := by
  simp only [Version.addDuration, bind_eq_ok_iff, h.shiftAll (.inl rfl)]

theorem SameLength.minusDuration (h : SameLength d e) :
    v.minusDuration d = .ok w ↔ v.minusDuration e = .ok w := by
  simp only [Version.minusDuration, bind_eq_ok_iff, h.shiftAll (.inr rfl)]

/-! ## Faults -/

theorem shiftAll_misreported_iff (hsign : sign.natAbs = 1) :
    Misreported (shiftAll sign counts m >>= ofMoment) ↔ Reaches IsUnreported sign counts m := by
  constructor
  · rintro ⟨f, hf, hclass⟩
    rcases shiftAll_ofMoment_error hsign hf with hlogic | ⟨-, hover⟩ | ⟨-, hdigits⟩
    · exact absurd hlogic hclass
    · obtain ⟨before, unit, n, after, m', hcounts, hbefore, hn⟩ := hover
      exact ⟨before, unit, n, after, m', hcounts, hbefore, .inl hn⟩
    · obtain ⟨before, unit, n, after, m', hcounts, hbefore, hn⟩ := hdigits
      exact ⟨before, unit, n, after, m', hcounts, hbefore, .inr hn⟩
  · rintro ⟨before, unit, n, after, m', hcounts, hbefore, hn | hn⟩
    · have hover : Overflows sign counts m := ⟨before, unit, n, after, m', hcounts, hbefore, hn⟩
      rw [hover.shiftAll hsign]
      exact ⟨_, rfl, nofun⟩
    · have hdigits : Reaches IsUnwritable sign counts m :=
        ⟨before, unit, n, after, m', hcounts, hbefore, hn⟩
      rw [shiftAll_of_unwritable hsign hdigits]
      exact ⟨_, rfl, nofun⟩

theorem addDuration_misreported :
    Misreported (v.addDuration d) ↔ Reaches IsUnreported 1 d.amounts v.moment :=
  shiftAll_misreported_iff rfl

theorem minusDuration_misreported :
    Misreported (v.minusDuration d) ↔ Reaches IsUnreported (-1) d.amounts v.moment :=
  shiftAll_misreported_iff rfl

/-- The counts are not too large. -/
def Moderate (d : Duration) : Prop :=
  ∀ unit, d.amount unit < floatLimit

theorem Moderate.not_reaches (h : Moderate d) : ¬ Reaches IsUnreported sign d.amounts m := by
  intro hreach
  obtain ⟨unit, n, hn, hlarge⟩ := hreach.mem
  obtain ⟨x, -, hx⟩ := List.mem_map.mp hn
  cases hx
  exact absurd hlarge.floatLimit_le (Nat.not_le.mpr (h unit))

/-- Durations of the same length lead to the same version, or are both refused, unless one of them gets as
far as a count that is too large or cannot be shown. -/
theorem same_length_moves (h : SameLength d e) (v : Version) :
    (∀ w, v.addDuration d = .ok w ↔ v.addDuration e = .ok w) ∧
    (∀ w, v.minusDuration d = .ok w ↔ v.minusDuration e = .ok w) ∧
    (Moderate d → Moderate e → SameOutcome (v.addDuration d) (v.addDuration e) ∧
      SameOutcome (v.minusDuration d) (v.minusDuration e)) ∧
    (SameOutcome (v.addDuration d) (v.addDuration e) ↔
      ¬ Reaches IsUnreported 1 d.amounts v.moment ∧
        ¬ Reaches IsUnreported 1 e.amounts v.moment) ∧
    (SameOutcome (v.minusDuration d) (v.minusDuration e) ↔
      ¬ Reaches IsUnreported (-1) d.amounts v.moment ∧
        ¬ Reaches IsUnreported (-1) e.amounts v.moment) := by
  have hadd := sameOutcome_iff fun _ => h.addDuration (v := v)
  have hminus := sameOutcome_iff fun _ => h.minusDuration (v := v)
  simp only [addDuration_misreported, minusDuration_misreported] at hadd hminus
  refine ⟨fun _ => h.addDuration, fun _ => h.minusDuration, fun hd he => ⟨?_, ?_⟩, hadd, hminus⟩
  · exact hadd.mpr ⟨hd.not_reaches, he.not_reaches⟩
  · exact hminus.mpr ⟨hd.not_reaches, he.not_reaches⟩

/-- Seventy minutes are an hour and ten minutes. Ten to the 308th days are refused, but as many hours are
too large. -/
theorem same_length_moves_minutes :
    SameLength ⟨0, 0, 0, 0, 70, 0⟩ ⟨0, 0, 0, 1, 10, 0⟩ ∧
      SameLength ⟨0, 0, 10 ^ 308, 0, 0, 0⟩ ⟨0, 0, 0, 24 * 10 ^ 308, 0, 0⟩ ∧
      ∃ v : Version, v.civil = ⟨2020, 1, 1, 0, 0, 0⟩ ∧
        SameOutcome (v.addDuration ⟨0, 0, 0, 0, 70, 0⟩) (v.addDuration ⟨0, 0, 0, 1, 10, 0⟩) ∧
        ¬ SameOutcome (v.addDuration ⟨0, 0, 10 ^ 308, 0, 0, 0⟩)
          (v.addDuration ⟨0, 0, 0, 24 * 10 ^ 308, 0, 0⟩) := by
  have hcivil : Civil.ofSeconds (1577836800 + epochStart) = ⟨2020, 1, 1, 0, 0, 0⟩ := by
    decide +kernel
  have hminutes : SameLength ⟨0, 0, 0, 0, 70, 0⟩ ⟨0, 0, 0, 1, 10, 0⟩ := ⟨rfl, rfl, rfl⟩
  have hdays : SameLength ⟨0, 0, 10 ^ 308, 0, 0, 0⟩ ⟨0, 0, 0, 24 * 10 ^ 308, 0, 0⟩ :=
    ⟨rfl, rfl, by decide +kernel⟩
  let v : Version := ⟨1577836800, by decide⟩
  have hlimit : 70 < floatLimit := by decide +kernel
  have hsmall : ∀ {hours minutes}, hours ≤ 70 → minutes ≤ 70 →
      Moderate ⟨0, 0, 0, hours, minutes, 0⟩ := by
    intro hours minutes hh hm unit
    cases unit <;> simp only [Duration.amount] <;> omega
  have hlarge : Reaches IsUnreported 1
      (Duration.amounts ⟨0, 0, 0, 24 * 10 ^ 308, 0, 0⟩) v.moment :=
    ⟨[(.year, 0), (.month, 0), (.day, 0)], .hour, _, [(.minute, 0), (.second, 0)], v.moment, rfl, rfl,
      .inl ⟨rfl, by decide +kernel⟩⟩
  refine ⟨hminutes, hdays, v, hcivil, ?_, fun hsame => ?_⟩
  · exact ((same_length_moves hminutes v).2.2.1 (hsmall (by decide) (by decide))
      (hsmall (by decide) (by decide))).1
  · exact ((same_length_moves hdays v).2.2.2.1.mp hsame).2 hlarge

end Version

end DateSpan
