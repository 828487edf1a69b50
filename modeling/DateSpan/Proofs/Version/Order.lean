import DateSpan.Proofs.Text.FixedWidth
import DateSpan.Proofs.Version.Reading
import Mathlib.Order.Nat

/-! Orders of versions. Versions are compared by their seconds, and their epochs, their components, year
first, and both of their written forms are ordered in the same way. -/

namespace DateSpan

open Calendar Text

/-! ## Written forms -/

namespace Calendar.Civil

variable {a b : Civil}

/-- The places of each component suffice. -/
theorem Valid.places (h : a.Valid) :
    a.year < 10 ^ 4 ∧ a.month < 10 ^ 2 ∧ a.day < 10 ^ 2 ∧ a.hour < 10 ^ 2 ∧ a.minute < 10 ^ 2 ∧
      a.second < 10 ^ 2 := by
  obtain ⟨hyear, hmonth, hday, hhour, hminute, hsecond⟩ := h
  have hdays := daysInMonth_le a.year a.month
  omega

theorem Valid.toList_digits (h : a.Valid) :
    a.digits.toList = fixedDigits 4 a.year ++ (fixedDigits 2 a.month ++ (fixedDigits 2 a.day ++
      (fixedDigits 2 a.hour ++ (fixedDigits 2 a.minute ++ (fixedDigits 2 a.second ++ []))))) := by
  obtain ⟨hyear, hmonth, hday, hhour, hminute, hsecond⟩ := h.places
  simp only [digits, String.toList_append, zeroPadded_eq (by decide) hyear,
    zeroPadded_eq (by decide) hmonth, zeroPadded_eq (by decide) hday,
    zeroPadded_eq (by decide) hhour, zeroPadded_eq (by decide) hminute,
    zeroPadded_eq (by decide) hsecond, List.append_assoc, List.append_nil]

theorem Valid.toList_text (h : a.Valid) :
    (a.text ++ "Z").toList = fixedDigits 4 a.year ++ '-' :: (fixedDigits 2 a.month ++ '-' ::
      (fixedDigits 2 a.day ++ 'T' :: (fixedDigits 2 a.hour ++ ':' ::
        (fixedDigits 2 a.minute ++ ':' :: (fixedDigits 2 a.second ++ ['Z']))))) := by
  obtain ⟨hyear, hmonth, hday, hhour, hminute, hsecond⟩ := h.places
  have hdash : "-".toList = ['-'] := rfl
  have htee : "T".toList = ['T'] := rfl
  have hcolon : ":".toList = [':'] := rfl
  have hzone : "Z".toList = ['Z'] := rfl
  simp only [text, String.toList_append, zeroPadded_eq (by decide) hyear,
    zeroPadded_eq (by decide) hmonth, zeroPadded_eq (by decide) hday,
    zeroPadded_eq (by decide) hhour, zeroPadded_eq (by decide) hminute,
    zeroPadded_eq (by decide) hsecond, hdash, htee, hcolon, hzone, List.append_assoc,
    List.cons_append, List.nil_append]

theorem Valid.digits_lt_iff (ha : a.Valid) (hb : b.Valid) :
    a.digits < b.digits ↔ a.components < b.components := by
  obtain ⟨hyear, hmonth, hday, hhour, hminute, hsecond⟩ := ha.places
  obtain ⟨hyear', hmonth', hday', hhour', hminute', hsecond'⟩ := hb.places
  rw [String.lt_iff, ha.toList_digits, hb.toList_digits, components_lt_iff,
    fixedDigits_append_lt_iff hyear hyear', fixedDigits_append_lt_iff hmonth hmonth',
    fixedDigits_append_lt_iff hday hday', fixedDigits_append_lt_iff hhour hhour',
    fixedDigits_append_lt_iff hminute hminute', fixedDigits_append_lt_iff hsecond hsecond']
  simp only [List.not_lt_nil, and_false, or_false]

theorem Valid.text_lt_iff (ha : a.Valid) (hb : b.Valid) :
    a.text ++ "Z" < b.text ++ "Z" ↔ a.components < b.components := by
  obtain ⟨hyear, hmonth, hday, hhour, hminute, hsecond⟩ := ha.places
  obtain ⟨hyear', hmonth', hday', hhour', hminute', hsecond'⟩ := hb.places
  -- The separators are the same in both texts, so they never decide.
  have hsame : ∀ (c : Char) (us vs : List Char), c :: us < c :: vs ↔ us < vs := by
    intro c us vs
    rw [List.cons_lt_cons_iff]
    exact ⟨fun h => (h.resolve_left (Char.lt_irrefl c)).2, fun h => .inr ⟨rfl, h⟩⟩
  rw [String.lt_iff, ha.toList_text, hb.toList_text, components_lt_iff,
    fixedDigits_append_lt_iff hyear hyear', hsame, fixedDigits_append_lt_iff hmonth hmonth', hsame,
    fixedDigits_append_lt_iff hday hday', hsame, fixedDigits_append_lt_iff hhour hhour', hsame,
    fixedDigits_append_lt_iff hminute hminute', hsame, fixedDigits_append_lt_iff hsecond hsecond',
    hsame]
  simp only [List.not_lt_nil, and_false, or_false]

end Calendar.Civil

/-! ## Differences -/

/-- The first number that is not zero, if there is one. -/
def firstNonzero (ds : List Int) : Int :=
  (ds.find? (· ≠ 0)).getD 0

theorem firstNonzero_zero (ds : List Int) : firstNonzero (0 :: ds) = firstNonzero ds := by
  rw [firstNonzero, List.find?_cons_of_neg (by decide)]
  rfl

theorem firstNonzero_cons {d : Int} (hd : d ≠ 0) (ds : List Int) : firstNonzero (d :: ds) = d := by
  rw [firstNonzero, List.find?_cons_of_pos (by simpa using hd)]
  rfl

theorem firstNonzero_eq_zero_iff {ds : List Int} : firstNonzero ds = 0 ↔ ∀ d ∈ ds, d = 0 := by
  induction ds with
  | nil => exact ⟨fun _ => nofun, fun _ => rfl⟩
  | cons d ds ih =>
    rw [List.forall_mem_cons]
    by_cases hd : d = 0
    · rw [hd, firstNonzero_zero, ih]
      exact ⟨fun h => ⟨rfl, h⟩, And.right⟩
    · rw [firstNonzero_cons hd]
      exact ⟨fun h => absurd h hd, And.left⟩

/-- The first difference of two lists is negative just when the first list is less. -/
theorem firstNonzero_neg_iff {cs : List Component} {f g : Component → Nat} :
    firstNonzero (cs.map fun c => (f c : Int) - g c) < 0 ↔ cs.map f < cs.map g := by
  induction cs with
  | nil => exact ⟨fun h => absurd h (Int.lt_irrefl 0), fun h => absurd h (List.not_lt_nil _)⟩
  | cons c cs ih =>
    rw [List.map_cons, List.map_cons, List.map_cons, List.cons_lt_cons_iff]
    by_cases hc : (f c : Int) - g c = 0
    · rw [hc, firstNonzero_zero, ih]
      have heq : f c = g c := by omega
      rw [heq]
      exact ⟨fun h => .inr ⟨rfl, h⟩, fun h => (h.resolve_left (Nat.lt_irrefl _)).2⟩
    · rw [firstNonzero_cons hc]
      have hne : f c ≠ g c := by omega
      constructor
      · intro h
        exact .inl (by omega)
      · rintro (h | ⟨h, -⟩)
        · omega
        · exact absurd h hne

namespace Version

/-! ## Orders -/

/-- The comparison tells how the two are ordered. -/
structure Tells {α : Type} [LT α] (o : Ordering) (x y : α) : Prop where
  less : o = .lt ↔ x < y
  equal : o = .eq ↔ x = y
  greater : o = .gt ↔ y < x

/-- Whatever grows with the seconds of versions is ordered as the versions are. -/
theorem tells {α : Type} [LT α] {f : Version → α}
    (hlt : ∀ v w, f v < f w ↔ v.seconds < w.seconds) (v w : Version) :
    Tells (v.order w) (f v) (f w) := by
  have hirrefl : ∀ v, ¬ f v < f v := fun v h => Nat.lt_irrefl _ ((hlt v v).mp h)
  refine ⟨?_, ?_, ?_⟩
  · rw [hlt, order, Nat.compare_eq_lt]
  · rw [order, Nat.compare_eq_eq]
    constructor
    · intro h
      rw [eq_of_seconds h]
    · intro h
      have hvw : ¬ v.seconds < w.seconds := mt (hlt v w).mpr (h ▸ hirrefl v)
      have hwv : ¬ w.seconds < v.seconds := mt (hlt w v).mpr (h ▸ hirrefl v)
      omega
  · rw [hlt, order, Nat.compare_eq_gt]

theorem components_lt_iff (v w : Version) :
    Component.all.map v.component < Component.all.map w.component ↔ v.seconds < w.seconds :=
  (v.seconds_lt_iff w).symm

theorem epoch_lt_iff (v w : Version) : v.epoch < w.epoch ↔ v.seconds < w.seconds := by
  unfold epoch
  omega

theorem slug_lt_iff (v w : Version) : v.slug < w.slug ↔ v.seconds < w.seconds :=
  (v.civil_valid.digits_lt_iff w.civil_valid).trans (v.seconds_lt_iff w).symm

theorem text_lt_iff (v w : Version) : v.text < w.text ↔ v.seconds < w.seconds :=
  (v.civil_valid.text_lt_iff w.civil_valid).trans (v.seconds_lt_iff w).symm

theorem order_eq_iff (v w : Version) : v.order w = .eq ↔ v = w := by
  rw [order, Nat.compare_eq_eq]
  exact ⟨eq_of_seconds, fun h => h ▸ rfl⟩

/-- Versions in their order. -/
instance : LinearOrder Version :=
  LinearOrder.lift' Version.seconds fun _ _ => eq_of_seconds

theorem diff_milliseconds (v w : Version) :
    (v.diff w).milliseconds = 1000 * ((v.seconds : Int) - w.seconds) := by
  simp only [diff, epoch]
  omega

theorem milliseconds_eq_zero_iff (v w : Version) :
    (v.diff w).milliseconds = 0 ↔ ∀ c, (v.diff w).component c = 0 := by
  rw [diff_milliseconds]
  constructor
  · intro h c
    obtain rfl : v = w := eq_of_seconds (by omega)
    exact Int.sub_self _
  · intro h
    have hcomponents : v.civil.components = w.civil.components := by
      apply List.map_congr_left
      intro c _
      exact Int.ofNat_inj.mp (Int.sub_eq_zero.mp (h c))
    rw [eq_of_civil (Civil.components_injective hcomponents)]
    omega

theorem milliseconds_neg_iff (v w : Version) :
    (v.diff w).milliseconds < 0 ↔ firstNonzero (Component.all.map (v.diff w).component) < 0 := by
  have hfirst : firstNonzero (Component.all.map (v.diff w).component) < 0 ↔
      Component.all.map v.component < Component.all.map w.component := firstNonzero_neg_iff
  rw [hfirst, components_lt_iff, diff_milliseconds]
  omega

theorem sign_eq_of_iff {a b : Int} (hneg : a < 0 ↔ b < 0) (hzero : a = 0 ↔ b = 0) :
    a.sign = b.sign := by
  rcases Int.lt_trichotomy a 0 with h | h | h
  · rw [Int.sign_eq_neg_one_of_neg h, Int.sign_eq_neg_one_of_neg (hneg.mp h)]
  · rw [h, hzero.mp h]
  · have hb : 0 < b := by omega
    rw [Int.sign_eq_one_of_pos h, Int.sign_eq_one_of_pos hb]

/-- Versions are ordered as their seconds, their epochs, their slugs, their texts and their components
are, and a difference has the sign of the first component that differs. -/
theorem orders_agree (v w : Version) :
    (v.order w = .eq ↔ v = w) ∧ Tells (v.order w) v.seconds w.seconds ∧
    Tells (v.order w) v.epoch w.epoch ∧ Tells (v.order w) v.slug w.slug ∧
    Tells (v.order w) v.text w.text ∧
    Tells (v.order w) (Component.all.map v.component) (Component.all.map w.component) ∧
    (v.diff w).milliseconds.sign =
      (firstNonzero (Component.all.map (v.diff w).component)).sign ∧
    ((v.diff w).milliseconds = 0 ↔ ∀ c, (v.diff w).component c = 0) ∧
    (∀ c, (w.diff v).component c = -(v.diff w).component c) ∧
    (w.diff v).milliseconds = -(v.diff w).milliseconds := by
  have hzero : (v.diff w).milliseconds = 0 ↔
      firstNonzero (Component.all.map (v.diff w).component) = 0 := by
    rw [milliseconds_eq_zero_iff, firstNonzero_eq_zero_iff, List.forall_mem_map]
    exact ⟨fun h c _ => h c, fun h c => h c (by cases c <;> decide)⟩
  refine ⟨v.order_eq_iff w, tells (fun _ _ => Iff.rfl) v w, tells epoch_lt_iff v w,
    tells slug_lt_iff v w, tells text_lt_iff v w, tells components_lt_iff v w,
    sign_eq_of_iff (v.milliseconds_neg_iff w) hzero, v.milliseconds_eq_zero_iff w, ?_, ?_⟩
  · intro c
    exact (Int.neg_sub _ _).symm
  · exact (Int.neg_sub _ _).symm

end Version

end DateSpan
