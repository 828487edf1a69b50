import DateSpan.Expr.Resolve
import DateSpan.Proofs.Version.Reading

/-! Briefs as spans of versions. The versions that agree with a brief in every field it writes are
those from its first reading to its last. -/

namespace DateSpan.Expr.Brief

open Calendar

/-- The earliest reading with the written fields. -/
def firstCivil : Brief → Civil
  | second y mo d h mi s => ⟨y, mo, d, h, mi, s⟩
  | minute y mo d h mi => ⟨y, mo, d, h, mi, 0⟩
  | hour y mo d h => ⟨y, mo, d, h, 0, 0⟩
  | day y mo d => ⟨y, mo, d, 0, 0, 0⟩
  | month y mo => ⟨y, mo, 1, 0, 0, 0⟩
  | year y => ⟨y, 1, 1, 0, 0, 0⟩

/-- The latest reading with the written fields. -/
def lastCivil : Brief → Civil
  | second y mo d h mi s => ⟨y, mo, d, h, mi, s⟩
  | minute y mo d h mi => ⟨y, mo, d, h, mi, 59⟩
  | hour y mo d h => ⟨y, mo, d, h, 59, 59⟩
  | day y mo d => ⟨y, mo, d, 23, 59, 59⟩
  | month y mo => ⟨y, mo, daysInMonth y mo, 23, 59, 59⟩
  | year y => ⟨y, 12, 31, 23, 59, 59⟩

/-- The brief is a calendar value of the years 1970 to 9999. -/
structure Valid (b : Brief) : Prop where
  occurs : b.firstCivil.Valid
  epoch : 1970 ≤ b.firstCivil.year

/-- The reading agrees with the brief in every field that is written. -/
def Reads (b : Brief) (c : Civil) : Prop :=
  ∀ x ∈ Component.all.zip b.fields, c.component x.1 = x.2

/-- The version agrees with the brief in every field that is written. -/
def Covers (b : Brief) (v : Version) : Prop :=
  b.Reads v.civil

theorem Valid.lastCivil_valid {b : Brief} (h : b.Valid) : b.lastCivil.Valid := by
  obtain ⟨⟨hy, hmo, hd, hh, hmi, hs⟩, -⟩ := h
  cases b with
  | second => exact ⟨hy, hmo, hd, hh, hmi, hs⟩
  | minute => exact ⟨hy, hmo, hd, hh, hmi, Nat.le_refl 59⟩
  | hour => exact ⟨hy, hmo, hd, hh, Nat.le_refl 59, Nat.le_refl 59⟩
  | day => exact ⟨hy, hmo, hd, Nat.le_refl 23, Nat.le_refl 59, Nat.le_refl 59⟩
  | month y mo =>
    exact ⟨hy, hmo, ⟨one_le_daysInMonth y mo, Nat.le_refl _⟩, Nat.le_refl 23, Nat.le_refl 59,
      Nat.le_refl 59⟩
  | year y =>
    exact ⟨hy, ⟨Nat.le_add_left 1 11, Nat.le_refl 12⟩, ⟨Nat.le_add_left 1 30, Nat.le_refl 31⟩,
      Nat.le_refl 23, Nat.le_refl 59, Nat.le_refl 59⟩

theorem lastCivil_year (b : Brief) : b.lastCivil.year = b.firstCivil.year := by
  cases b <;> rfl

theorem start_eq (b : Brief) :
    b.start = Version.ofFields b.firstCivil.year b.firstCivil.month b.firstCivil.day
      b.firstCivil.hour b.firstCivil.minute b.firstCivil.second := by
  cases b <;> rfl

theorem lastOf_eq {b : Brief} (hb : b.precision ≠ .second) {first : Version}
    (h : first.civil = b.firstCivil) :
    first.lastOf b.precision = Version.ofFields b.lastCivil.year b.lastCivil.month b.lastCivil.day
      b.lastCivil.hour b.lastCivil.minute b.lastCivil.second := by
  cases b with
  | second => exact absurd rfl hb
  | _ =>
    simp only [Version.lastOf, precision, h]
    rfl

/-- The ends of the span are the versions of the first and the last reading. -/
theorem Valid.ends_eq {b : Brief} (h : b.Valid) :
    ∃ first last : Version, b.ends false = .ok (.closed first, .closed last) ∧
      first.civil = b.firstCivil ∧ last.civil = b.lastCivil := by
  obtain ⟨first, hfirst, hcivil⟩ := Version.ofFields_eq_ok h.occurs h.epoch
  obtain ⟨last, hlast, hcivil'⟩ :=
    Version.ofFields_eq_ok h.lastCivil_valid (b.lastCivil_year ▸ h.epoch)
  refine ⟨first, last, ?_, hcivil, hcivil'⟩
  rw [ends, start_eq, hfirst]
  change spanEnds false b.precision first = _
  by_cases hb : b.precision = .second
  · have heq : last = first := by
      apply Version.eq_of_civil
      rw [hcivil, hcivil']
      cases b <;> first | rfl | cases hb
    rw [spanEnds, if_pos hb, heq]
    rfl
  · rw [spanEnds, if_neg hb]
    change (do return (Anchor.closed first, Anchor.closed (← first.lastOf b.precision))) = _
    rw [lastOf_eq hb hcivil, hlast]
    rfl

theorem reads_iff (b : Brief) {c : Civil} (hc : c.Valid) :
    b.Reads c ↔
      ¬ c.components < b.firstCivil.components ∧ ¬ b.lastCivil.components < c.components := by
  rw [Civil.components_lt_iff, Civil.components_lt_iff]
  obtain ⟨-, hmo, hd, hh, hmi, hs⟩ := hc
  have hdays : daysInMonth c.year c.month ≤ 31 := daysInMonth_le _ _
  cases b with
  | month y mo =>
    simp only [Reads, fields, Component.all, firstCivil, lastCivil, List.zip_cons_cons,
      List.zip_nil_right, List.forall_mem_cons, List.not_mem_nil, false_implies, implies_true,
      and_true, Civil.component]
    -- The last day of the month is known only where the year and the month are.
    by_cases hdate : c.year = y ∧ c.month = mo
    · obtain ⟨rfl, rfl⟩ := hdate
      omega
    · omega
  | _ =>
    simp only [Reads, fields, Component.all, firstCivil, lastCivil, List.zip_cons_cons,
      List.zip_nil_right, List.forall_mem_cons, List.not_mem_nil, false_implies, implies_true,
      and_true, Civil.component]
    omega

/-- A version has all written fields just when it lies between the first and the last reading. -/
theorem covers_iff {b : Brief} {first last : Version}
    (hfirst : first.civil = b.firstCivil) (hlast : last.civil = b.lastCivil) (v : Version) :
    b.Covers v ↔ first.seconds ≤ v.seconds ∧ v.seconds ≤ last.seconds := by
  rw [← Nat.not_lt, ← Nat.not_lt, Version.seconds_lt_iff, Version.seconds_lt_iff, hfirst, hlast]
  exact b.reads_iff v.civil_valid

theorem reads_firstCivil (b : Brief) : b.Reads b.firstCivil := by
  cases b <;> simp [Reads, fields, Component.all, firstCivil, Civil.component]

theorem reads_lastCivil (b : Brief) : b.Reads b.lastCivil := by
  cases b <;> simp [Reads, fields, Component.all, lastCivil, Civil.component]

end DateSpan.Expr.Brief
