import DateSpan.Proofs.Expr.Briefs
import DateSpan.Proofs.Range.Members
import DateSpan.Proofs.Version.Moves

/-! Ends of briefs in both modes. The start of the next unit is the second after the last one of a
unit, months and years included; only at the end of the calendar there is no next unit. -/

namespace DateSpan

open Calendar

/-! ## Edges of anchors -/

namespace Version

theorem shifted_second {v w : Version} {n : Int} :
    v.shifted .second n = .ok w ↔ (w.seconds : Int) = v.seconds + n := by
  rw [shifted_length_eq_ok rfl, Int.natCast_one, Int.one_mul]

theorem ok_eq_iff {v w : Version} :
    (.ok v : Except Fault Version) = .ok w ↔ (w.seconds : Int) = v.seconds := by
  rw [Except.ok.injEq]
  exact ⟨fun h => h ▸ rfl, fun h => eq_of_seconds (Int.ofNat_inj.mp h.symm)⟩

end Version

namespace Anchor

variable {a : Anchor} {w : Version}

theorem lowerEdge_eq_ok_iff : a.lowerEdge = .ok w ↔ (w.seconds : Int) = a.lowerSecond := by
  obtain ⟨v, isOpen⟩ := a
  cases isOpen with
  | false =>
    change Except.ok v = .ok w ↔ (w.seconds : Int) = lowerSecond (.closed v)
    rw [Version.ok_eq_iff, lowerSecond_closed]
  | true =>
    change v.shifted .second 1 = .ok w ↔ _
    rw [Version.shifted_second, lowerSecond_open]

theorem upperEdge_eq_ok_iff : a.upperEdge = .ok w ↔ (w.seconds : Int) = a.upperSecond := by
  obtain ⟨v, isOpen⟩ := a
  cases isOpen with
  | false =>
    change Except.ok v = .ok w ↔ (w.seconds : Int) = upperSecond (.closed v)
    rw [Version.ok_eq_iff, upperSecond_closed]
  | true =>
    change v.shifted .second (-1) = .ok w ↔ _
    rw [Version.shifted_second, upperSecond_open]
    rfl

theorem lowerSecond_flipped (a : Anchor) : a.flipped.lowerSecond = a.upperSecond + 1 := by
  obtain ⟨v, isOpen⟩ := a
  cases isOpen <;> simp [flipped, lowerSecond, upperSecond, gap]

theorem upperSecond_flipped (a : Anchor) : a.flipped.upperSecond = a.lowerSecond - 1 := by
  obtain ⟨v, isOpen⟩ := a
  cases isOpen <;> simp [flipped, lowerSecond, upperSecond, gap]

end Anchor

/-! ## Next units -/

namespace Calendar

/-- The last second of a month is the one before the next month. -/
theorem Civil.Valid.seconds_succ {c : Civil} (h : c.Valid)
    (hday : c.day = daysInMonth c.year c.month) (htime : c.secondOfDay = 86399) :
    c.seconds + 1 = monthStart (c.monthNumber + 1) := by
  have hyear := h.year
  have hmonth := h.month
  have hpositive := h.day
  have hy : c.monthNumber / 12 + 1 = c.year := by unfold Civil.monthNumber; omega
  have hm : c.monthNumber % 12 + 1 = c.month := by unfold Civil.monthNumber; omega
  rw [monthStart_succ, hy, hm, ← hday, h.seconds_eq, Civil.sinceMonth, htime]
  omega

/-- From the start of a month, a number of months leads to the start of another. -/
theorem Instant.shiftMonths_of_start {i k : Instant} {n : Nat} (hstart : i.sinceMonth = 0) :
    i.shiftMonths n = some k ↔ k.seconds = monthStart (i.monthNumber + n) := by
  rw [shiftMonths_eq_some, hstart]
  constructor
  · rintro ⟨m, -, hm, hk⟩
    obtain rfl : m = i.monthNumber + n := by omega
    exact hk
  · intro hk
    have hin := k.inCalendar
    rw [hk, ← monthStart_calendarMonths] at hin
    exact ⟨i.monthNumber + n, monthStart_strictMono.lt_iff_lt.mp hin, by omega, hk⟩

end Calendar

namespace Expr.Brief

variable {b : Brief} {first last : Version}

theorem start_eq_ok_iff {v : Version} : b.start = .ok v ↔ v.civil = b.firstCivil := by
  rw [start_eq]
  constructor
  · intro h
    exact (Civil.eq_of_fields (Version.ofFields_sound h)).symm
  · intro h
    rw [← h]
    exact v.ofFields_civil

theorem valid_of_civil (h : first.civil = b.firstCivil) : b.Valid :=
  ⟨h ▸ first.civil_valid, h ▸ first.civil_year⟩

/-- One unit after the first second of a brief is the second after its last. -/
theorem Valid.shift_precision (hvalid : b.Valid) (hb : b.precision ≠ .second) {i k : Instant}
    (hi : i.civil = b.firstCivil) :
    i.shift b.precision 1 = some k ↔ k.seconds = b.lastCivil.seconds + 1 := by
  have hstart := i.civil_seconds
  rw [hi] at hstart
  have hfixed : ∀ (unit : Component) (length : Nat), unit.length? = some length →
      b.lastCivil.dayNumber = b.firstCivil.dayNumber →
      b.lastCivil.secondOfDay + 1 = b.firstCivil.secondOfDay + length →
      (i.shift unit 1 = some k ↔ k.seconds = b.lastCivil.seconds + 1) := by
    intro unit length hlength hday htime
    have hlast : b.lastCivil.seconds + 1 = b.firstCivil.seconds + length := by
      rw [Civil.seconds, Civil.seconds, hday, Nat.add_assoc, htime, Nat.add_assoc]
    rw [Instant.shift_of_length hlength, Int.mul_one, Instant.shiftSeconds_eq_some]
    omega
  have hmonths : ∀ n : Nat, b.lastCivil.monthNumber + 1 = b.firstCivil.monthNumber + n →
      b.firstCivil.sinceMonth = 0 → b.lastCivil.day = daysInMonth b.lastCivil.year b.lastCivil.month →
      b.lastCivil.secondOfDay = 86399 →
      (i.shiftMonths n = some k ↔ k.seconds = b.lastCivil.seconds + 1) := by
    intro n hn hfirst hday htime
    rw [Instant.shiftMonths_of_start ((congrArg Civil.sinceMonth hi).trans hfirst),
      hvalid.lastCivil_valid.seconds_succ hday htime, hn, ← hi]
    rfl
  cases b with
  | second => exact absurd rfl hb
  | minute y mo d h mi =>
    have htime : 3600 * h + 60 * mi + 59 + 1 = 3600 * h + 60 * mi + 0 + 60 := by omega
    exact hfixed .minute 60 rfl rfl htime
  | hour y mo d h =>
    have htime : 3600 * h + 60 * 59 + 59 + 1 = 3600 * h + 60 * 0 + 0 + 3600 := by omega
    exact hfixed .hour 3600 rfl rfl htime
  | day y mo d =>
    have htime : 3600 * 23 + 60 * 59 + 59 + 1 = 3600 * 0 + 60 * 0 + 0 + 86400 := by omega
    exact hfixed .day 86400 rfl rfl htime
  | month y mo =>
    change i.shift .month 1 = some k ↔ _
    rw [Instant.shift_month]
    exact hmonths 1 rfl rfl rfl rfl
  | year y =>
    change i.shift .year 1 = some k ↔ _
    rw [Instant.shift_year]
    exact hmonths 12 rfl rfl rfl rfl

/-! ## Ends -/

/-- The unit of the brief ends with the calendar. -/
def EndsCalendar (b : Brief) : Prop :=
  b.precision ≠ .second ∧ b.lastCivil = ⟨9999, 12, 31, 23, 59, 59⟩

theorem ends_second (hb : b.precision = .second) (minimum : Bool) : b.ends minimum = b.ends false := by
  rw [ends, ends, hb]
  rfl

theorem ends_next (hb : b.precision ≠ .second) (hfirst : first.civil = b.firstCivil)
    (hlast : last.civil = b.lastCivil) {ends : Anchor × Anchor} :
    b.ends true = .ok ends ↔
      ∃ next : Version, next.seconds = last.seconds + 1 ∧ ends = (.closed first, ⟨next, true⟩) := by
  have hstep : ∀ next : Version,
      first.shifted b.precision 1 = .ok next ↔ next.seconds = last.seconds + 1 := by
    intro next
    have hseconds := last.civil_seconds
    rw [hlast] at hseconds
    rw [Version.shifted_eq_ok,
      (valid_of_civil hfirst).shift_precision hb hfirst, hseconds]
    simp only [Version.instant]
    omega
  have hends : b.ends true = first.shifted b.precision 1 >>= fun next =>
      .ok (.closed first, ⟨next, true⟩) := by
    rw [Brief.ends, start_eq_ok_iff.mpr hfirst]
    change spanEnds true b.precision first = _
    rw [spanEnds, if_neg hb]
    rfl
  rw [hends]
  constructor
  · intro h
    obtain ⟨next, hnext, hdone⟩ := bind_eq_ok h
    cases hdone
    exact ⟨next, (hstep next).mp hnext, rfl⟩
  · rintro ⟨next, hnext, rfl⟩
    rw [(hstep next).mpr hnext]
    rfl

theorem civil_of_ends {minimum : Bool} {ends : Anchor × Anchor} (h : b.ends minimum = .ok ends) :
    ∃ first : Version, first.civil = b.firstCivil := by
  obtain ⟨first, hfirst, -⟩ := bind_eq_ok h
  exact ⟨first, start_eq_ok_iff.mp hfirst⟩

/-- In both modes the ends are those of the first and the last second of the brief. -/
theorem ends_spec {minimum : Bool} {ends : Anchor × Anchor} (h : b.ends minimum = .ok ends) :
    ∃ first last : Version, b.ends false = .ok (.closed first, .closed last) ∧
      first.civil = b.firstCivil ∧ last.civil = b.lastCivil ∧ ends.1 = .closed first ∧
      ends.2.upperSecond = last.seconds ∧ last.seconds ≤ ends.2.version.seconds := by
  obtain ⟨start, hstart⟩ := civil_of_ends h
  obtain ⟨first, last, hends, hfirst, hlast⟩ := (valid_of_civil hstart).ends_eq
  refine ⟨first, last, hends, hfirst, hlast, ?_⟩
  by_cases hclosed : b.precision = .second ∨ minimum = false
  · have hsame : b.ends minimum = b.ends false := by
      rcases hclosed with hsecond | rfl
      · exact ends_second hsecond minimum
      · rfl
    cases h.symm.trans (hsame.trans hends)
    exact ⟨rfl, Anchor.upperSecond_closed last, Nat.le_refl _⟩
  · obtain ⟨hb, hminimum⟩ := not_or.mp hclosed
    rw [Bool.eq_true_of_not_eq_false hminimum] at h
    obtain ⟨next, hnext, rfl⟩ := (ends_next hb hfirst hlast).mp h
    refine ⟨rfl, ?_, Nat.le_of_lt (by simp only; omega)⟩
    rw [Anchor.upperSecond_open]
    omega

theorem final_civil : Version.final.civil = ⟨9999, 12, 31, 23, 59, 59⟩ := by
  have hvalid : Civil.Valid ⟨9999, 12, 31, 23, 59, 59⟩ := by
    constructor <;> decide
  have hseconds : Civil.seconds ⟨9999, 12, 31, 23, 59, 59⟩ = Version.final.instant.seconds := by
    decide +kernel
  rw [Version.civil, Instant.civil, ← hseconds, Civil.ofSeconds_seconds hvalid]

/-- Only a brief that ends with the calendar has no next unit. -/
theorem exists_ends (h : b.Valid) (hb : ¬ b.EndsCalendar) : ∃ ends, b.ends true = .ok ends := by
  obtain ⟨first, last, hends, hfirst, hlast⟩ := h.ends_eq
  by_cases hsecond : b.precision = .second
  · exact ⟨_, (ends_second hsecond true).trans hends⟩
  · have hnext : last.seconds + 1 < versionSeconds := by
      have hin := last.inCalendar
      have hne : last.seconds ≠ Version.final.seconds := by
        intro heq
        refine hb ⟨hsecond, ?_⟩
        rw [← hlast, Version.eq_of_seconds heq, final_civil]
      have hfinal : Version.final.seconds + 1 = versionSeconds := rfl
      omega
    exact ⟨_, (ends_next hsecond hfirst hlast).mpr ⟨⟨_, hnext⟩, rfl, rfl⟩⟩

end Expr.Brief

end DateSpan
