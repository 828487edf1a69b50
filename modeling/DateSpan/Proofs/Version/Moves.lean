import DateSpan.Proofs.Version.Fields

/-! Moves by durations. Of two durations ordered count by count the longer leads further, into the
future as into the past. Months are unequal, so this is not a matter of adding up: where the years
differ, they leave the two moments so far apart that the months cannot bring them together again. -/

namespace DateSpan

open Calendar

namespace Calendar

variable {sign : Int}

/-! ## Months -/

theorem monthStart_towards (hsign : sign = 1 ∨ sign = -1) {a b : Nat} (h : sign * a ≤ sign * b) :
    sign * monthStart a ≤ sign * monthStart b := by
  rcases hsign with rfl | rfl
  · have := monthStart_strictMono.monotone (show a ≤ b by omega)
    omega
  · have := monthStart_strictMono.monotone (show b ≤ a by omega)
    omega

theorem monthStart_apart (hsign : sign = 1 ∨ sign = -1) {a b : Nat}
    (h : sign * a + 2 ≤ sign * b) :
    sign * monthStart a + 86400 * 31 < sign * monthStart b := by
  rcases hsign with rfl | rfl
  · have := monthStart_strictMono.monotone (show a + 2 ≤ b by omega)
    have := monthStart_add_lt a
    omega
  · have := monthStart_strictMono.monotone (show b + 2 ≤ a by omega)
    have := monthStart_add_lt b
    omega

namespace Instant

variable {i i' k k' : Instant} {a a' : Nat}

/-- In the direction of the sign, the second instant is not before the first. -/
def Towards (sign : Int) (i j : Instant) : Prop :=
  sign * i.seconds ≤ sign * j.seconds

theorem exists_shiftMonths {n : Nat} {m : Int} (hn : n < calendarMonths)
    (htarget : (n : Int) = i.monthNumber + m)
    (hlt : monthStart n + i.sinceMonth < calendarSeconds) :
    ∃ j, i.shiftMonths m = some j ∧ j.seconds = monthStart n + i.sinceMonth :=
  ⟨⟨_, hlt⟩, shiftMonths_eq_some.mpr ⟨n, hn, htarget, rfl⟩, rfl⟩

/-- The month that fewer months lead to, where more months stay in the calendar. -/
theorem exists_target (hsign : sign = 1 ∨ sign = -1)
    (hstart : sign * i.monthNumber ≤ sign * i'.monthNumber) (hle : a ≤ a') {n' : Nat}
    (hn' : n' < calendarMonths) (htarget' : (n' : Int) = i'.monthNumber + sign * a') :
    ∃ n < calendarMonths, (n : Int) = i.monthNumber + sign * a := by
  have hi := i.monthNumber_lt
  rcases hsign with rfl | rfl
  · exact ⟨i.monthNumber + a, by omega, by omega⟩
  · exact ⟨i.monthNumber - a, by omega, by omega⟩

/-- A move by fewer months stays between the start and where more months lead. -/
theorem shiftMonths_between (hsign : sign = 1 ∨ sign = -1) (hle : a ≤ a')
    (h : i.shiftMonths (sign * a') = some k') :
    ∃ k, i.shiftMonths (sign * a) = some k ∧ Towards sign i k ∧ Towards sign k k' ∧
      (k = k' → a = a') := by
  obtain ⟨n', hn', htarget', hk'⟩ := shiftMonths_eq_some.mp h
  obtain ⟨n, hn, htarget⟩ := exists_target hsign (Int.le_refl _) hle hn' htarget'
  have hnear : sign * monthStart i.monthNumber ≤ sign * monthStart n := by
    apply monthStart_towards hsign
    rcases hsign with rfl | rfl <;> omega
  have hfar : sign * monthStart n ≤ sign * monthStart n' := by
    apply monthStart_towards hsign
    rcases hsign with rfl | rfl <;> omega
  have hstart := i.seconds_eq
  have hin := i.inCalendar
  have hin' := k'.inCalendar
  have hlt : monthStart n + i.sinceMonth < calendarSeconds := by
    rcases hsign with rfl | rfl <;> omega
  obtain ⟨k, hk, hseconds⟩ := exists_shiftMonths hn htarget hlt
  refine ⟨k, hk, ?_, ?_, ?_⟩
  · unfold Towards
    rcases hsign with rfl | rfl <;> omega
  · unfold Towards
    rcases hsign with rfl | rfl <;> omega
  · rintro rfl
    have := monthStart_strictMono.injective (show monthStart n = monthStart n' by omega)
    rcases hsign with rfl | rfl <;> omega

/-- In the direction of the sign, a month lies between those of two instants. -/
def Apart (sign : Int) (i j : Instant) : Prop :=
  sign * i.monthNumber + 2 ≤ sign * j.monthNumber

theorem apart_of_shiftMonths (hsign : sign = 1 ∨ sign = -1) (hle : a + 3 ≤ a')
    (h : i.shiftMonths (sign * a) = some k) (h' : i.shiftMonths (sign * a') = some k') :
    Apart sign k k' := by
  have hk := monthNumber_of_shiftMonths h
  have hk' := monthNumber_of_shiftMonths h'
  unfold Apart
  rcases hsign with rfl | rfl <;> omega

/-- Instants apart keep their order if the further one is moved by no fewer months. -/
theorem Apart.shiftMonths (hsign : sign = 1 ∨ sign = -1) (hapart : Apart sign i i') (hle : a ≤ a')
    (h : i'.shiftMonths (sign * a') = some k') :
    ∃ k, i.shiftMonths (sign * a) = some k ∧ Towards sign i k ∧ Towards sign k k' ∧ k ≠ k' := by
  obtain ⟨n', hn', htarget', hk'⟩ := shiftMonths_eq_some.mp h
  unfold Apart at hapart
  have hmonths : sign * i.monthNumber ≤ sign * i'.monthNumber := by omega
  obtain ⟨n, hn, htarget⟩ := exists_target hsign hmonths hle hn' htarget'
  have hnear : sign * monthStart i.monthNumber ≤ sign * monthStart n := by
    apply monthStart_towards hsign
    rcases hsign with rfl | rfl <;> omega
  have hfar : sign * monthStart n + 86400 * 31 < sign * monthStart n' := by
    apply monthStart_apart hsign
    rcases hsign with rfl | rfl <;> omega
  have hstart := i.seconds_eq
  have hin := i.inCalendar
  have hin' := k'.inCalendar
  have hshort := i.sinceMonth_lt
  have hshort' := i'.sinceMonth_lt
  have hlt : monthStart n + i.sinceMonth < calendarSeconds := by
    rcases hsign with rfl | rfl <;> omega
  obtain ⟨k, hk, hseconds⟩ := exists_shiftMonths hn htarget hlt
  refine ⟨k, hk, ?_, ?_, ?_⟩
  · unfold Towards
    rcases hsign with rfl | rfl <;> omega
  · unfold Towards
    rcases hsign with rfl | rfl <;> omega
  · rintro rfl
    rcases hsign with rfl | rfl <;> omega

/-! ## Seconds -/

theorem shiftSeconds_between (hsign : sign = 1 ∨ sign = -1) (htowards : Towards sign i i')
    (hle : a ≤ a') (h : i'.shiftSeconds (sign * a') = some k') :
    ∃ k, i.shiftSeconds (sign * a) = some k ∧ Towards sign i k ∧ Towards sign k k' ∧
      (k = k' → i = i' ∧ a = a') := by
  rw [shiftSeconds_eq_some] at h
  unfold Towards at htowards
  have hin := i.inCalendar
  have hin' := k'.inCalendar
  obtain ⟨n, hn, hlt⟩ : ∃ n : Nat, (n : Int) = i.seconds + sign * a ∧ n < calendarSeconds := by
    rcases hsign with rfl | rfl
    · exact ⟨i.seconds + a, by omega, by omega⟩
    · exact ⟨i.seconds - a, by omega, by omega⟩
  refine ⟨⟨n, hlt⟩, shiftSeconds_eq_some.mpr hn, ?_, ?_, ?_⟩
  · change sign * i.seconds ≤ sign * n
    rcases hsign with rfl | rfl <;> omega
  · change sign * n ≤ sign * k'.seconds
    rcases hsign with rfl | rfl <;> omega
  · rintro rfl
    simp only at h
    have heq : i.seconds = i'.seconds ∧ a = a' := by
      rcases hsign with rfl | rfl <;> omega
    exact ⟨eq_of_seconds heq.1, heq.2⟩

end Instant

end Calendar

namespace Version

variable {sign : Int} {m m' r r' : Moment}

/-! ## One count -/

theorem calendarSeconds_lt_floatLimit : calendarSeconds < floatLimit := by
  decide +kernel

/-- An amount that stays in the calendar is not too large. -/
theorem shifted_eq_ok_iff {unit : Component} {amount : Int} :
    m.shifted unit amount = .ok r ↔
      m.instant.shift unit amount = some r.instant ∧ r.micro = m.micro := by
  obtain ⟨j, micro'⟩ := r
  by_cases hlarge : IsOverflow unit amount.natAbs
  · rw [shifted_of_large hlarge.1 hlarge.2]
    refine ⟨nofun, fun h => ?_⟩
    have hbound := Nat.lt_trans (Instant.natAbs_lt_of_shift h.1) calendarSeconds_lt_floatLimit
    exact absurd hlarge.2 (Nat.not_le.mpr hbound)
  · rw [shifted_of_small hlarge]
    cases m.instant.shift unit amount with
    | none => exact ⟨nofun, nofun⟩
    | some k =>
      simp only [Except.ok.injEq, Moment.mk.injEq, Option.some.injEq]
      exact ⟨fun h => ⟨h.1, h.2.symm⟩, fun h => ⟨h.1, h.2.symm⟩⟩

theorem shifted_zero (m : Moment) (unit : Component) : m.shifted unit 0 = .ok m :=
  shifted_eq_ok_iff.mpr ⟨m.instant.shift_zero unit, rfl⟩

/-- A count of zero may be taken as a move. -/
theorem shiftAll_cons_eq (unit : Component) (n : Nat) (counts : List (Component × Nat)) (m : Moment) :
    shiftAll sign ((unit, n) :: counts) m =
      m.shifted unit (sign * n) >>= fun r => shiftAll sign counts r := by
  by_cases hn : n = 0
  · rw [shiftAll_zero hn, hn, Int.natCast_zero, Int.mul_zero, shifted_zero]
    rfl
  · exact shiftAll_cons hn

theorem shifted_of_shift {unit : Component} {amount : Int} {k : Instant}
    (hk : m.instant.shift unit amount = some k) : m.shifted unit amount = .ok ⟨k, m.micro⟩ :=
  shifted_eq_ok_iff.mpr ⟨hk, rfl⟩

open Instant (Towards Apart)

theorem shifted_fixed (hsign : sign = 1 ∨ sign = -1) {unit : Component} {a a' : Nat}
    (hfixed : unit.length?.isSome) (htowards : Towards sign m.instant m'.instant) (hle : a ≤ a')
    (h : m'.shifted unit (sign * a') = .ok r') :
    ∃ r, m.shifted unit (sign * a) = .ok r ∧ Towards sign m.instant r.instant ∧
      Towards sign r.instant r'.instant ∧
      (r.instant = r'.instant → m.instant = m'.instant ∧ a = a') := by
  obtain ⟨length, hlength⟩ := Option.isSome_iff_exists.mp hfixed
  have hproduct : ∀ n : Nat, (length : Int) * (sign * n) = sign * (length * n : Nat) := by
    intro n
    rw [Int.natCast_mul, Int.mul_left_comm]
  obtain ⟨hshift, -⟩ := shifted_eq_ok_iff.mp h
  rw [Instant.shift_of_length hlength, hproduct] at hshift
  obtain ⟨k, hk, hmk, hkr, hsame⟩ :=
    Instant.shiftSeconds_between hsign htowards (Nat.mul_le_mul_left length hle) hshift
  rw [← hproduct, ← Instant.shift_of_length hlength] at hk
  refine ⟨_, shifted_of_shift hk, hmk, hkr, fun heq => ?_⟩
  obtain ⟨hinstant, hcount⟩ := hsame heq
  exact ⟨hinstant, Nat.eq_of_mul_eq_mul_left (Component.length_pos hlength) hcount⟩

/-- Fewer years lead to the same moment only if they are as many, else to one that is months nearer. -/
theorem shifted_year (hsign : sign = 1 ∨ sign = -1) {a a' : Nat} (hle : a ≤ a')
    (h : m.shifted .year (sign * a') = .ok r') :
    ∃ r, m.shifted .year (sign * a) = .ok r ∧ Towards sign m.instant r.instant ∧
      (a = a' ∧ r = r' ∨ Apart sign r.instant r'.instant) := by
  have hproduct : ∀ n : Nat, 12 * (sign * n) = sign * (12 * n : Nat) := by
    intro n
    rw [Int.natCast_mul, Int.mul_left_comm]
    rfl
  obtain ⟨hshift, -⟩ := shifted_eq_ok_iff.mp h
  rw [Instant.shift_year, hproduct] at hshift
  obtain ⟨k, hk, hmk, -⟩ := Instant.shiftMonths_between hsign (Nat.mul_le_mul_left 12 hle) hshift
  have hyear : m.instant.shift .year (sign * a) = some k := by
    rw [Instant.shift_year, hproduct]
    exact hk
  have hr := shifted_of_shift hyear
  refine ⟨_, hr, hmk, ?_⟩
  rcases Nat.eq_or_lt_of_le hle with rfl | hlt
  · cases hr.symm.trans h
    exact .inl ⟨rfl, rfl⟩
  · exact .inr (Instant.apart_of_shiftMonths hsign (by omega) hk hshift)

theorem shifted_month (hsign : sign = 1 ∨ sign = -1) {a a' : Nat}
    (hstart : m = m' ∨ Apart sign m.instant m'.instant) (hle : a ≤ a')
    (h : m'.shifted .month (sign * a') = .ok r') :
    ∃ r, m.shifted .month (sign * a) = .ok r ∧ Towards sign m.instant r.instant ∧
      Towards sign r.instant r'.instant ∧ (r.instant = r'.instant → m = m' ∧ a = a') := by
  obtain ⟨hshift, -⟩ := shifted_eq_ok_iff.mp h
  rw [Instant.shift_month] at hshift
  rcases hstart with rfl | hapart
  · obtain ⟨k, hk, hmk, hkr, hsame⟩ := Instant.shiftMonths_between hsign hle hshift
    rw [← Instant.shift_month] at hk
    exact ⟨_, shifted_of_shift hk, hmk, hkr, fun heq => ⟨rfl, hsame heq⟩⟩
  · obtain ⟨k, hk, hmk, hkr, hne⟩ := hapart.shiftMonths hsign hle hshift
    rw [← Instant.shift_month] at hk
    exact ⟨_, shifted_of_shift hk, hmk, hkr, fun heq => absurd heq hne⟩

/-! ## All counts -/

/-- The counts are of units of one length each, and the second ones are no less. -/
def LongerCounts : List (Component × Nat) → List (Component × Nat) → Prop :=
  List.Forall₂ fun c c' => c.1 = c'.1 ∧ c.1.length?.isSome ∧ c.2 ≤ c'.2

theorem shiftAll_fixed (hsign : sign = 1 ∨ sign = -1) {counts counts' : List (Component × Nat)}
    (hcounts : LongerCounts counts counts') (htowards : Towards sign m.instant m'.instant)
    (h : shiftAll sign counts' m' = .ok r') :
    ∃ r, shiftAll sign counts m = .ok r ∧ Towards sign m.instant r.instant ∧
      Towards sign r.instant r'.instant ∧
      (r.instant = r'.instant → m.instant = m'.instant ∧ counts = counts') := by
  induction hcounts generalizing m m' with
  | nil =>
    cases h
    exact ⟨m, rfl, Int.le_refl _, htowards, fun heq => ⟨heq, rfl⟩⟩
  | @cons c c' counts counts' hc _ ih =>
    obtain ⟨unit, n⟩ := c
    obtain ⟨unit', n'⟩ := c'
    obtain ⟨rfl, hfixed, hle⟩ := hc
    rw [shiftAll_cons_eq] at h
    obtain ⟨s', hs', hrest'⟩ := bind_eq_ok h
    obtain ⟨s, hs, hms, hss', hsame⟩ := shifted_fixed hsign hfixed htowards hle hs'
    obtain ⟨r, hr, hsr, hrr', hsame'⟩ := ih hss' hrest'
    refine ⟨r, ?_, Int.le_trans hms hsr, hrr', ?_⟩
    · rw [shiftAll_cons_eq, hs]
      exact hr
    · intro heq
      obtain ⟨hinstant, rfl⟩ := hsame' heq
      obtain ⟨hinstant', rfl⟩ := hsame hinstant
      exact ⟨hinstant', rfl⟩

end Version

namespace Duration

/-- No count of the first duration is greater than that of the second. -/
def AtMost (d d' : Duration) : Prop :=
  ∀ unit, d.amount unit ≤ d'.amount unit

theorem zero_atMost (d : Duration) : zero.AtMost d := by
  intro unit
  cases unit <;> exact Nat.zero_le _

/-- The counts of units that are always of one length. -/
def fixedCounts (d : Duration) : List (Component × Nat) :=
  [(.day, d.days), (.hour, d.hours), (.minute, d.minutes), (.second, d.seconds)]

theorem amounts_eq (d : Duration) :
    d.amounts = (.year, d.years) :: (.month, d.months) :: d.fixedCounts := rfl

theorem AtMost.fixedCounts {d d' : Duration} (h : d.AtMost d') :
    Version.LongerCounts d.fixedCounts d'.fixedCounts :=
  .cons ⟨rfl, rfl, h .day⟩ (.cons ⟨rfl, rfl, h .hour⟩
    (.cons ⟨rfl, rfl, h .minute⟩ (.cons ⟨rfl, rfl, h .second⟩ .nil)))

theorem eq_of_counts {d d' : Duration} (hyears : d.years = d'.years) (hmonths : d.months = d'.months)
    (hfixed : d.fixedCounts = d'.fixedCounts) : d = d' := by
  cases d
  cases d'
  simp_all [fixedCounts]

end Duration

namespace Version

open Instant (Towards Apart)

/-- A shorter duration leads to a moment between the start and where a longer one leads. -/
theorem shiftAll_between {sign : Int} (hsign : sign = 1 ∨ sign = -1) {d d' : Duration}
    (hle : d.AtMost d') {m r' : Moment} (h : shiftAll sign d'.amounts m = .ok r') :
    ∃ r, shiftAll sign d.amounts m = .ok r ∧ Towards sign m.instant r.instant ∧
      Towards sign r.instant r'.instant ∧ (r.instant = r'.instant → d = d') := by
  rw [Duration.amounts_eq, shiftAll_cons_eq] at h
  obtain ⟨j', hj', hmore⟩ := bind_eq_ok h
  rw [shiftAll_cons_eq] at hmore
  obtain ⟨k', hk', hfixed⟩ := bind_eq_ok hmore
  have hleYears : d.years ≤ d'.years := hle .year
  have hleMonths : d.months ≤ d'.months := hle .month
  obtain ⟨j, hj, hmj, hyears⟩ := shifted_year hsign hleYears hj'
  obtain ⟨k, hk, hjk, hkk', hmonths⟩ :=
    shifted_month hsign (hyears.imp And.right id) hleMonths hk'
  obtain ⟨r, hr, hkr, hrr', hrest⟩ := shiftAll_fixed hsign hle.fixedCounts hkk' hfixed
  refine ⟨r, ?_, Int.le_trans hmj (Int.le_trans hjk hkr), hrr', ?_⟩
  · rw [Duration.amounts_eq, shiftAll_cons_eq, hj]
    change shiftAll sign ((.month, d.months) :: d.fixedCounts) j = _
    rw [shiftAll_cons_eq, hk]
    exact hr
  · intro heq
    obtain ⟨hinstant, hcounts⟩ := hrest heq
    obtain ⟨rfl, hmonth⟩ := hmonths hinstant
    have hyear : d.years = d'.years := by
      rcases hyears with ⟨hyear, -⟩ | hapart
      · exact hyear
      · unfold Apart at hapart
        omega
    exact Duration.eq_of_counts hyear hmonth hcounts

/-! ## Versions -/

variable {v w' : Version} {d d' : Duration}

theorem addDuration_between (hle : d.AtMost d') (h : v.addDuration d' = .ok w') :
    ∃ w, v.addDuration d = .ok w ∧ v.seconds ≤ w.seconds ∧ w.seconds ≤ w'.seconds ∧
      (w = w' → d = d') := by
  obtain ⟨r', hr', hw'⟩ := bind_eq_ok h
  obtain ⟨r, hr, hstart, hend, hsame⟩ := shiftAll_between (.inl rfl) hle hr'
  have hv : v.moment.instant.seconds = v.seconds + epochStart := rfl
  unfold Towards at hstart hend
  obtain ⟨w, hw⟩ := exists_ofMoment (m := r) (by omega)
  rw [ofMoment_eq_ok_iff] at hw'
  have hseconds := ofMoment_eq_ok_iff.mp hw
  refine ⟨w, ?_, by omega, by omega, ?_⟩
  · rw [addDuration, hr]
    exact hw
  · rintro rfl
    exact hsame (Instant.eq_of_seconds (hseconds.trans hw'.symm))

theorem minusDuration_between (hle : d.AtMost d') (h : v.minusDuration d' = .ok w') :
    ∃ w, v.minusDuration d = .ok w ∧ w.seconds ≤ v.seconds ∧ w'.seconds ≤ w.seconds ∧
      (w = w' → d = d') := by
  obtain ⟨r', hr', hw'⟩ := bind_eq_ok h
  obtain ⟨r, hr, hstart, hend, hsame⟩ := shiftAll_between (.inr rfl) hle hr'
  have hv : v.moment.instant.seconds = v.seconds + epochStart := rfl
  unfold Towards at hstart hend
  rw [ofMoment_eq_ok_iff] at hw'
  obtain ⟨w, hw⟩ := exists_ofMoment (m := r) (by omega)
  have hseconds := ofMoment_eq_ok_iff.mp hw
  refine ⟨w, ?_, by omega, by omega, ?_⟩
  · rw [minusDuration, hr]
    exact hw
  · rintro rfl
    exact hsame (Instant.eq_of_seconds (hseconds.trans hw'.symm))

theorem le_of_addDuration (h : v.addDuration d' = .ok w') : v.seconds ≤ w'.seconds := by
  obtain ⟨w, -, hstart, hend, -⟩ := addDuration_between d'.zero_atMost h
  exact Nat.le_trans hstart hend

theorem le_of_minusDuration (h : v.minusDuration d' = .ok w') : w'.seconds ≤ v.seconds := by
  obtain ⟨w, -, hstart, hend, -⟩ := minusDuration_between d'.zero_atMost h
  exact Nat.le_trans hend hstart

theorem ofMoment_moment (v : Version) : ofMoment v.moment = .ok v :=
  ofMoment_eq_ok_iff.mpr rfl

theorem shifted_eq_ok {w : Version} {unit : Component} {n : Int} :
    v.shifted unit n = .ok w ↔ v.instant.shift unit n = some w.instant := by
  constructor
  · intro h
    obtain ⟨m, hm, hw⟩ := bind_eq_ok h
    obtain ⟨hshift, -⟩ := shifted_eq_ok_iff.mp hm
    have hinstant : m.instant = w.instant := Instant.eq_of_seconds (ofMoment_eq_ok_iff.mp hw)
    rw [← hinstant]
    exact hshift
  · intro h
    have hm : v.moment.shifted unit n = .ok w.moment := shifted_eq_ok_iff.mpr ⟨h, rfl⟩
    rw [shifted, hm]
    exact (pure_bind w.moment ofMoment).trans w.ofMoment_moment

theorem shifted_length_eq_ok {w : Version} {unit : Component} {length : Nat}
    (h : unit.length? = some length) {n : Int} :
    v.shifted unit n = .ok w ↔ (w.seconds : Int) = v.seconds + length * n := by
  rw [shifted_eq_ok, Instant.shift_of_length h, Instant.shiftSeconds_eq_some]
  simp only [instant]
  omega

theorem shiftAll_zero_amounts (sign : Int) (m : Moment) :
    shiftAll sign Duration.zero.amounts m = .ok m := rfl

theorem addDuration_zero (v : Version) : v.addDuration .zero = .ok v := by
  rw [addDuration, shiftAll_zero_amounts]
  exact (pure_bind v.moment ofMoment).trans v.ofMoment_moment

theorem minusDuration_zero (v : Version) : v.minusDuration .zero = .ok v := by
  rw [minusDuration, shiftAll_zero_amounts]
  exact (pure_bind v.moment ofMoment).trans v.ofMoment_moment

end Version

end DateSpan
