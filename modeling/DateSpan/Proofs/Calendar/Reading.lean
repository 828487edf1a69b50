import DateSpan.Calendar.Instant

/-! Seconds and readings: each second of the calendar has one valid reading, and seconds are ordered
as the components of their readings are, year first. -/

namespace DateSpan.Calendar

/-! ## Years -/

/-- Days of a year. -/
def daysInYear (year : Nat) : Nat :=
  if isLeap year then 366 else 365

theorem isLeap_iff (year : Nat) :
    isLeap year = true ↔ year % 4 = 0 ∧ (year % 100 ≠ 0 ∨ year % 400 = 0) := by
  simp [isLeap]

theorem succ_div_eq (p k : Nat) :
    (p + 1) / k = p / k + if (p + 1) % k = 0 then 1 else 0 := by
  simp only [Nat.succ_div, Nat.dvd_iff_mod_eq_zero]

theorem daysBeforeYear_succ {year : Nat} (h : 1 ≤ year) :
    daysBeforeYear (year + 1) = daysBeforeYear year + daysInYear year := by
  obtain ⟨p, rfl⟩ := Nat.exists_eq_add_of_le' h
  have hc : p / 100 ≤ p / 4 := Nat.div_le_div_left (by decide) (by decide)
  have h25 : (p + 1) % 100 = 0 → (p + 1) % 4 = 0 := by omega
  have h16 : (p + 1) % 400 = 0 → (p + 1) % 100 = 0 := by omega
  simp only [daysBeforeYear, daysInYear, isLeap_iff, Nat.add_sub_cancel, succ_div_eq p, ne_eq]
  by_cases e4 : (p + 1) % 4 = 0
  · by_cases e100 : (p + 1) % 100 = 0
    · by_cases e400 : (p + 1) % 400 = 0
      · simp only [e4, e100, e400, not_true, or_true, and_true, if_true]; omega
      · simp only [e4, e100, e400, not_true, or_false, and_false, if_true, if_false]; omega
    · simp only [e4, e100, mt h16 e100, not_false_eq_true, or_false, and_true, if_true, if_false]
      omega
  · simp only [e4, mt h25 e4, mt h16 (mt h25 e4), false_and, if_false]
    omega

theorem daysBeforeYear_mono {a b : Nat} (h : a ≤ b) : daysBeforeYear a ≤ daysBeforeYear b := by
  induction h with
  | refl => exact Nat.le_refl _
  | @step b _ ih =>
    cases b with
    | zero => exact ih
    | succ b =>
      rw [daysBeforeYear_succ (Nat.succ_pos b)]
      exact Nat.le_trans ih (Nat.le_add_right _ _)

/-- The year found for a day is the one that the day lies in. -/
theorem yearOfDay_bounds (day : Nat) :
    1 ≤ yearOfDay day ∧ daysBeforeYear (yearOfDay day) ≤ day ∧
      day < daysBeforeYear (yearOfDay day + 1) := by
  have hlow : daysBeforeYear (day * 400 / 146097) ≤ day := by
    simp only [daysBeforeYear]; omega
  have hhigh : day < daysBeforeYear (day * 400 / 146097 + 1 + 1 + 1) := by
    simp only [daysBeforeYear]; omega
  have hzero : daysBeforeYear 1 = 0 := rfl
  unfold yearOfDay
  dsimp only
  split
  · rename_i hlt
    refine ⟨?_, hlow, hlt⟩
    cases hq : day * 400 / 146097 with
    | zero => rw [hq, hzero] at hlt; exact absurd hlt (Nat.not_lt_zero _)
    | succ q => exact Nat.succ_pos q
  · split
    · exact ⟨Nat.succ_pos _, by assumption, hhigh⟩
    · exact ⟨Nat.succ_pos _, by omega, by omega⟩

theorem yearOfDay_eq {year day : Nat} (h₁ : daysBeforeYear year ≤ day)
    (h₂ : day < daysBeforeYear (year + 1)) : yearOfDay day = year := by
  obtain ⟨_, hlow, hhigh⟩ := yearOfDay_bounds day
  rcases Nat.lt_trichotomy (yearOfDay day) year with h | h | h
  · have : daysBeforeYear (yearOfDay day + 1) ≤ daysBeforeYear year := daysBeforeYear_mono h
    omega
  · exact h
  · have : daysBeforeYear (year + 1) ≤ daysBeforeYear (yearOfDay day) := daysBeforeYear_mono h
    omega

/-! ## Months -/

@[simp] theorem total_nil : total [] = 0 := rfl

@[simp] theorem total_cons (l : Nat) (ls : List Nat) : total (l :: ls) = l + total ls := rfl

theorem total_take_add_le {ls : List Nat} {i j l : Nat} (h : ls[i]? = some l) (hij : i < j) :
    total (ls.take i) + l ≤ total (ls.take j) := by
  induction ls generalizing i j with
  | nil => simp at h
  | cons x xs ih =>
    obtain ⟨j, rfl⟩ := Nat.exists_eq_add_of_lt hij
    cases i with
    | zero =>
      simp only [List.getElem?_cons_zero, Option.some.injEq] at h
      simp [h]
    | succ i =>
      have := ih (j := i + j + 1) (by simpa using h) (by omega)
      rw [show i + 1 + j + 1 = (i + j + 1) + 1 by omega]
      simp only [List.take_succ_cons, total_cons]
      omega

theorem splitSpans_take_add {ls : List Nat} {i l r : Nat} (h : ls[i]? = some l) (hr : r < l) :
    splitSpans ls (total (ls.take i) + r) = (i, r) := by
  induction ls generalizing i with
  | nil => simp at h
  | cons x xs ih =>
    cases i with
    | zero =>
      simp only [List.getElem?_cons_zero, Option.some.injEq] at h
      simp [splitSpans, h, hr]
    | succ i =>
      have hi := ih (by simpa using h)
      have he : x + total (xs.take i) + r - x = total (xs.take i) + r := by omega
      rw [List.take_succ_cons, total_cons, splitSpans]
      split
      · omega
      · rw [he, hi]

/-- A count within the spans falls into one of them. -/
theorem splitSpans_spec {ls : List Nat} {n : Nat} (h : n < total ls) :
    ∃ l, ls[(splitSpans ls n).1]? = some l ∧ (splitSpans ls n).2 < l ∧
      total (ls.take (splitSpans ls n).1) + (splitSpans ls n).2 = n := by
  induction ls generalizing n with
  | nil => simp at h
  | cons x xs ih =>
    simp only [splitSpans]
    split
    · rename_i hx
      exact ⟨x, rfl, hx, by simp⟩
    · rename_i hx
      obtain ⟨l, hl, hr, hs⟩ := ih (n := n - x) (by simp only [total_cons] at h; omega)
      refine ⟨l, by simpa using hl, hr, ?_⟩
      simp only [List.take_succ_cons, total_cons]
      omega

theorem monthLengths_eq (year : Nat) :
    monthLengths year = [31, daysInMonth year 2, 31, 30, 31, 30, 31, 31, 30, 31, 30, 31] := rfl

theorem daysInMonth_le (year month : Nat) : daysInMonth year month ≤ 31 := by
  unfold daysInMonth
  repeat' split
  all_goals decide

theorem daysInMonth_ge (year month : Nat) : 28 ≤ daysInMonth year month := by
  unfold daysInMonth
  repeat' split
  all_goals decide

theorem one_le_daysInMonth (year month : Nat) : 1 ≤ daysInMonth year month :=
  Nat.le_trans (by decide) (daysInMonth_ge year month)

theorem total_monthLengths (year : Nat) : total (monthLengths year) = daysInYear year := by
  rw [monthLengths_eq]
  cases h : isLeap year <;> simp [daysInYear, daysInMonth, h]

theorem getElem?_monthLengths {year i l : Nat} :
    (monthLengths year)[i]? = some l ↔ i < 12 ∧ daysInMonth year (i + 1) = l := by
  simp only [monthLengths, List.getElem?_map, Option.map_eq_some_iff]
  by_cases h : i < 12
  · simp [h, Nat.add_comm]
  · simp [h]

theorem daysBeforeMonth_add_le {year month later : Nat} (h₁ : 1 ≤ month) (h : month < later)
    (h₂ : later ≤ 12) :
    daysBeforeMonth year month + daysInMonth year month ≤ daysBeforeMonth year later := by
  refine total_take_add_le (i := month - 1) (getElem?_monthLengths.mpr ⟨by omega, ?_⟩) (by omega)
  rw [Nat.sub_add_cancel h₁]

theorem daysBeforeMonth_add_le_year {year month : Nat} (h₁ : 1 ≤ month) (h₂ : month ≤ 12) :
    daysBeforeMonth year month + daysInMonth year month ≤ daysInYear year := by
  rw [← total_monthLengths, ← List.take_length (l := monthLengths year)]
  refine total_take_add_le (i := month - 1) (j := 12)
    (getElem?_monthLengths.mpr ⟨by omega, ?_⟩) (by omega)
  rw [Nat.sub_add_cancel h₁]

/-! ## Readings -/

namespace Civil

theorem Valid.dayNumber_bounds {c : Civil} (h : c.Valid) :
    daysBeforeYear c.year ≤ c.dayNumber ∧ c.dayNumber < daysBeforeYear (c.year + 1) := by
  have hmonth : daysBeforeMonth c.year c.month + daysInMonth c.year c.month ≤ _ :=
    daysBeforeMonth_add_le_year h.month.1 h.month.2
  have hday := h.day
  rw [daysBeforeYear_succ h.year.1]
  unfold dayNumber
  omega

theorem Valid.secondOfDay_lt {c : Civil} (h : c.Valid) : c.secondOfDay < 86400 := by
  have := h.hour
  have := h.minute
  have := h.second
  unfold secondOfDay
  omega

theorem Valid.seconds_lt {c : Civil} (h : c.Valid) : c.seconds < calendarSeconds := by
  have hlast : daysBeforeYear (c.year + 1) ≤ daysBeforeYear 10000 :=
    daysBeforeYear_mono (Nat.succ_le_succ h.year.2)
  have hall : 86400 * daysBeforeYear 10000 = calendarSeconds := rfl
  have := h.dayNumber_bounds
  have := h.secondOfDay_lt
  unfold seconds
  omega

/-- The reading of its second is a reading that occurs. -/
theorem ofSeconds_seconds {c : Civil} (h : c.Valid) : ofSeconds c.seconds = c := by
  have hday : c.seconds / 86400 = c.dayNumber := by
    have := h.secondOfDay_lt
    unfold seconds
    omega
  have htime : c.seconds % 86400 = c.secondOfDay := by
    have := h.secondOfDay_lt
    unfold seconds
    omega
  have hyear : yearOfDay c.dayNumber = c.year :=
    yearOfDay_eq h.dayNumber_bounds.1 h.dayNumber_bounds.2
  have hsplit : splitSpans (monthLengths c.year) (c.dayNumber - daysBeforeYear c.year) =
      (c.month - 1, c.day - 1) := by
    have hm := h.month
    have hd := h.day
    rw [show c.dayNumber - daysBeforeYear c.year =
      total ((monthLengths c.year).take (c.month - 1)) + (c.day - 1) by
        unfold dayNumber daysBeforeMonth; omega]
    refine splitSpans_take_add (getElem?_monthLengths.mpr ⟨by omega, rfl⟩) ?_
    rw [Nat.sub_add_cancel hm.1]
    omega
  obtain ⟨year, month, day, hour, minute, second⟩ := c
  have := h.month
  have := h.day
  have := h.hour
  have := h.minute
  have := h.second
  simp only [ofSeconds, hday, htime, hyear, hsplit, secondOfDay, mk.injEq, true_and] at *
  omega

theorem ofFields_eq_ok {c : Civil} (h : c.Valid) :
    ofFields c.year c.month c.day c.hour c.minute c.second = .ok c := by
  have hyear := h.year
  have hmonth := h.month
  have hday := h.day
  have hhour := h.hour
  have hminute := h.minute
  have hsecond := h.second
  simp only [ofFields, Int.toNat_natCast]
  rw [if_neg (by omega), if_neg (by omega), if_neg (by omega), if_neg (by omega),
    if_neg (by omega), if_neg (by omega)]

theorem ofSeconds_spec {n : Nat} (h : n < calendarSeconds) :
    (ofSeconds n).Valid ∧ (ofSeconds n).seconds = n := by
  obtain ⟨hpos, hlow, hhigh⟩ := yearOfDay_bounds (n / 86400)
  have hlast : yearOfDay (n / 86400) ≤ 9999 := by
    rcases Nat.lt_or_ge 9999 (yearOfDay (n / 86400)) with hy | hy
    · have hall : 86400 * daysBeforeYear 10000 = calendarSeconds := rfl
      have : daysBeforeYear 10000 ≤ daysBeforeYear (yearOfDay (n / 86400)) := daysBeforeYear_mono hy
      omega
    · exact hy
  have hin : n / 86400 - daysBeforeYear (yearOfDay (n / 86400)) <
      total (monthLengths (yearOfDay (n / 86400))) := by
    rw [total_monthLengths]
    rw [daysBeforeYear_succ hpos] at hhigh
    omega
  obtain ⟨l, hl, hr, hs⟩ := splitSpans_spec hin
  obtain ⟨hm, rfl⟩ := getElem?_monthLengths.mp hl
  constructor
  · refine ⟨⟨hpos, hlast⟩, ⟨Nat.succ_pos _, hm⟩, ⟨Nat.succ_pos _, hr⟩, ?_, ?_, ?_⟩
    all_goals simp only [ofSeconds]; omega
  · simp only [seconds, dayNumber, secondOfDay, daysBeforeMonth, ofSeconds, Nat.add_sub_cancel]
    omega

/-- The components, year first. -/
def components (c : Civil) : List Nat :=
  Component.all.map c.component

theorem components_lt_iff (a b : Civil) :
    a.components < b.components ↔ a.year < b.year ∨ a.year = b.year ∧
      (a.month < b.month ∨ a.month = b.month ∧ (a.day < b.day ∨ a.day = b.day ∧
        (a.hour < b.hour ∨ a.hour = b.hour ∧ (a.minute < b.minute ∨ a.minute = b.minute ∧
          a.second < b.second)))) := by
  simp [components, Component.all, component, List.cons_lt_cons_iff]

theorem components_injective {a b : Civil} (h : a.components = b.components) : a = b := by
  cases a
  cases b
  simpa [components, Component.all, component] using h

theorem seconds_lt_of_components_lt {a b : Civil} (ha : a.Valid) (hb : b.Valid)
    (h : a.components < b.components) : a.seconds < b.seconds := by
  have hta := ha.secondOfDay_lt
  have htb := hb.secondOfDay_lt
  have hda := ha.day
  have hdb := hb.day
  rw [components_lt_iff] at h
  rcases h with hy | ⟨hy, hm | ⟨hm, hd | ⟨hd, ht⟩⟩⟩
  · have : daysBeforeYear (a.year + 1) ≤ daysBeforeYear b.year := daysBeforeYear_mono hy
    have := ha.dayNumber_bounds
    have := hb.dayNumber_bounds
    unfold seconds
    omega
  · have : daysBeforeMonth a.year a.month + daysInMonth a.year a.month ≤ _ :=
      daysBeforeMonth_add_le ha.month.1 hm hb.month.2
    unfold seconds dayNumber
    rw [← hy]
    omega
  · unfold seconds dayNumber
    rw [← hy, ← hm]
    omega
  · have := ha.minute
    have := ha.second
    have := hb.minute
    have := hb.second
    unfold seconds dayNumber secondOfDay
    rw [← hy, ← hm, ← hd]
    omega

/-- Seconds are ordered as the components of their readings. -/
theorem seconds_lt_iff {a b : Civil} (ha : a.Valid) (hb : b.Valid) :
    a.seconds < b.seconds ↔ a.components < b.components := by
  refine ⟨fun h => ?_, seconds_lt_of_components_lt ha hb⟩
  by_cases hab : a.components < b.components
  · exact hab
  · rcases List.le_iff_lt_or_eq.mp (List.not_lt.mp hab) with hba | hba
    · exact absurd (seconds_lt_of_components_lt hb ha hba) (Nat.lt_asymm h)
    · rw [components_injective hba] at h
      exact absurd h (Nat.lt_irrefl _)

end Civil

end DateSpan.Calendar
