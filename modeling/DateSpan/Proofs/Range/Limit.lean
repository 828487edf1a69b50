import DateSpan.Range.Coercion
import Mathlib.Order.Compare
import Mathlib.Order.MinMax

/-! Limits as a linear order, and ranges by their first and last limits. -/

namespace DateSpan

namespace Limit

@[simp] theorem below_le (a : Limit) : below.le a = true := by cases a <;> rfl

@[simp] theorem le_above (a : Limit) : a.le above = true := by cases a <;> rfl

@[simp] theorem above_le_second (n : Int) : above.le (second n) = false := rfl

@[simp] theorem second_le_below (n : Int) : (second n).le below = false := rfl

@[simp] theorem above_le_below : above.le below = false := rfl

@[simp] theorem second_le_second (m n : Int) : (second m).le (second n) = true ↔ m ≤ n := by
  simp [le, order, Std.isLE_compare]

theorem lt_iff_not_le (a b : Limit) : a.lt b = true ↔ ¬ b.le a = true := by
  cases a with
  | below => cases b <;> simp [le, lt, order]
  | above => cases b <;> simp [le, lt, order]
  | second m => cases b <;> simp [le, lt, order, Std.isLE_compare, compare_lt_iff_lt]

theorem le_or_le (a b : Limit) : a.le b = true ∨ b.le a = true := by
  cases a with
  | below => exact .inl (below_le b)
  | above => exact .inr (le_above b)
  | second m =>
    cases b with
    | below => exact .inr rfl
    | above => exact .inl rfl
    | second n =>
      rw [second_le_second, second_le_second]
      exact Int.le_total m n

theorem eq_of_le_of_le {a b : Limit} (hab : a.le b = true) (hba : b.le a = true) : a = b := by
  cases a <;> cases b <;> simp at hab hba ⊢
  omega

theorem max_eq_ite (a b : Limit) : a.max b = if a.le b = true then b else a := by
  unfold max
  by_cases hba : b.le a = true
  · rw [if_neg ((lt_iff_not_le a b).not.mpr (not_not.mpr hba))]
    split
    · rename_i hab
      exact eq_of_le_of_le hab hba
    · rfl
  · rw [if_pos ((lt_iff_not_le a b).mpr hba), if_pos ((le_or_le a b).resolve_right hba)]

theorem min_eq_ite (a b : Limit) : a.min b = if a.le b = true then a else b := by
  unfold min
  by_cases hab : a.le b = true
  · rw [if_neg ((lt_iff_not_le b a).not.mpr (not_not.mpr hab)), if_pos hab]
  · rw [if_pos ((lt_iff_not_le b a).mpr hab), if_neg hab]

/-- The limits in their order; `max` and `min` are those of the order. -/
instance : LinearOrder Limit where
  le a b := a.le b = true
  lt a b := a.lt b = true
  max := max
  min := min
  le_refl a := by cases a <;> simp
  le_trans a b c hab hbc := by
    cases a <;> cases b <;> cases c <;> simp at hab hbc ⊢
    omega
  le_antisymm _ _ := eq_of_le_of_le
  le_total := le_or_le
  lt_iff_le_not_ge a b := by
    rw [lt_iff_not_le]
    exact ⟨fun h => ⟨(le_or_le a b).resolve_right h, h⟩, And.right⟩
  toDecidableLE a b := inferInstanceAs (Decidable (a.le b = true))
  max_def := max_eq_ite
  min_def := min_eq_ite

theorem second_lt_second_iff {m n : Int} : second m < second n ↔ m < n := by
  rw [← not_le, ← not_le]
  exact (second_le_second n m).not

theorem le_below_iff {a : Limit} : a ≤ below ↔ a = below :=
  ⟨fun h => le_antisymm h (below_le a), fun h => h ▸ le_rfl⟩

theorem above_le_iff {a : Limit} : above ≤ a ↔ a = above :=
  ⟨fun h => le_antisymm (le_above a) h, fun h => h ▸ le_rfl⟩

theorem not_above_lt (a : Limit) : ¬ above < a :=
  not_lt.mpr (le_above a)

end Limit

namespace Anchor

@[simp] theorem lowerSecond_closed (v : Version) : lowerSecond (closed v) = v.seconds := by
  simp [lowerSecond, closed, gap]

@[simp] theorem lowerSecond_open (v : Version) : lowerSecond ⟨v, true⟩ = v.seconds + 1 := by
  simp [lowerSecond, gap]

@[simp] theorem upperSecond_closed (v : Version) : upperSecond (closed v) = v.seconds := by
  simp [upperSecond, closed, gap]

@[simp] theorem upperSecond_open (v : Version) : upperSecond ⟨v, true⟩ = v.seconds - 1 := by
  simp [upperSecond, gap]

end Anchor

namespace Bounds

theorem isHollow_eq_false_iff (b : Bounds) :
    b.isHollow = false ↔ b.first ≤ b.last ∧ .second 0 ≤ b.last := by
  rw [isHollow, Bool.or_eq_false_iff, ← Bool.not_eq_true, ← Bool.not_eq_true]
  change ¬ b.last < b.first ∧ ¬ b.last < .second 0 ↔ _
  rw [not_lt, not_lt]

theorem first_eq_below_iff (b : Bounds) : b.first = .below ↔ b.lower = none := by
  unfold first
  cases b.lower <;> simp

theorem last_eq_above_iff (b : Bounds) : b.last = .above ↔ b.upper = none := by
  unfold last
  cases b.upper <;> simp

theorem first_bounds {b : Bounds} {n : Int} (h : b.first = .second n) :
    0 ≤ n ∧ n ≤ versionSeconds := by
  unfold first at h
  split at h
  · cases h
  · rename_i a _
    obtain rfl := Limit.second.inj h
    have := a.version.inCalendar
    unfold Anchor.lowerSecond Anchor.gap
    split <;> omega

theorem last_lt {b : Bounds} {n : Int} (h : b.last = .second n) : n < versionSeconds := by
  unfold last at h
  split at h
  · cases h
  · rename_i a _
    obtain rfl := Limit.second.inj h
    have := a.version.inCalendar
    unfold Anchor.upperSecond Anchor.gap
    split <;> omega

theorem first_ne_above (b : Bounds) : b.first ≠ .above := by
  unfold first
  split <;> exact nofun

theorem last_ne_below (b : Bounds) : b.last ≠ .below := by
  unfold last
  split <;> exact nofun

end Bounds

namespace Range

theorem contains_iff (r : Range) (v : Version) :
    r.contains v ↔ r.first ≤ .second v.seconds ∧ .second v.seconds ≤ r.last := by
  rw [contains, Bool.and_eq_true]
  rfl

theorem includes_iff (r s : Range) : r.includes s ↔ r.first ≤ s.first ∧ s.last ≤ r.last := by
  rw [includes, Bool.and_eq_true]
  rfl

theorem equals_iff (r s : Range) : r.equals s ↔ r.first = s.first ∧ r.last = s.last := by
  simp [equals]

theorem startsAfter_iff (r s : Range) : r.startsAfter s ↔ s.last < r.first := Iff.rfl

theorem endsBefore_iff (r s : Range) : r.endsBefore s ↔ r.last < s.first := Iff.rfl

/-! ## Construction -/

theorem ofBounds_eq_ok {b : Bounds} (hp : b.isAbsent = false) (ho : b.reversed? = none)
    (hi : b.isHollow = false) : ofBounds b = .ok ⟨b, hp, ho, hi⟩ := by
  unfold ofBounds
  split
  · simp_all
  · simp_all
  · simp_all
  · rfl

theorem ofBounds_toBounds (r : Range) : ofBounds r.toBounds = .ok r :=
  ofBounds_eq_ok r.present r.ordered r.inhabited

theorem ofBounds_eq_ok_iff {b : Bounds} {r : Range} : ofBounds b = .ok r ↔ r.toBounds = b := by
  constructor
  · intro h
    unfold ofBounds at h
    split at h
    · cases h
    · cases h
    · cases h
    · cases h
      rfl
  · rintro rfl
    exact ofBounds_toBounds r

/-- Bounds that make no range are refused as such. -/
theorem ofBounds_error {b : Bounds} {f : Fault} (h : ofBounds b = .error f) :
    f.classOf = .logic := by
  unfold ofBounds at h
  split at h <;> cases h <;> rfl

/-- A range starts no later than it ends. -/
theorem first_le_last (r : Range) : r.first ≤ r.last :=
  (r.toBounds.isHollow_eq_false_iff.mp r.inhabited).1

/-- A range ends in 1970 or later. -/
theorem zero_le_last (r : Range) : .second 0 ≤ r.last :=
  (r.toBounds.isHollow_eq_false_iff.mp r.inhabited).2

theorem exists_of_bounds {b : Bounds} (hp : b.isAbsent = false) (ho : b.reversed? = none)
    (h : b.first ≤ b.last) (hzero : .second 0 ≤ b.last) :
    ∃ r, ofBounds b = .ok r ∧
      ∀ v, r.contains v ↔ b.first ≤ .second v.seconds ∧ .second v.seconds ≤ b.last :=
  ⟨_, ofBounds_eq_ok hp ho (b.isHollow_eq_false_iff.mpr ⟨h, hzero⟩), contains_iff _⟩

theorem exists_between {first last : Version} (h : first.seconds ≤ last.seconds) :
    ∃ r, ofBounds ⟨some (.closed first), some (.closed last)⟩ = .ok r ∧
      ∀ v, r.contains v ↔ first.seconds ≤ v.seconds ∧ v.seconds ≤ last.seconds := by
  have hfirst : Bounds.first ⟨some (.closed first), some (.closed last)⟩ = .second first.seconds :=
    congrArg Limit.second (Anchor.lowerSecond_closed first)
  have hlast : Bounds.last ⟨some (.closed first), some (.closed last)⟩ = .second last.seconds :=
    congrArg Limit.second (Anchor.upperSecond_closed last)
  have hle : Limit.second first.seconds ≤ .second last.seconds :=
    (Limit.second_le_second _ _).mpr (by omega)
  have hzero : Limit.second 0 ≤ .second last.seconds :=
    (Limit.second_le_second _ _).mpr (by omega)
  obtain ⟨r, hr, hmem⟩ := exists_of_bounds (b := ⟨some (.closed first), some (.closed last)⟩) rfl
    (if_neg (Nat.not_lt.mpr h)) (by rw [hfirst, hlast]; exact hle) (by rw [hlast]; exact hzero)
  refine ⟨r, hr, fun v => ?_⟩
  rw [hmem, hfirst, hlast]
  have h₁ := Limit.second_le_second first.seconds v.seconds
  have h₂ := Limit.second_le_second v.seconds last.seconds
  exact (and_congr h₁ h₂).trans (by omega)

end Range

end DateSpan
