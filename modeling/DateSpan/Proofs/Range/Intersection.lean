import DateSpan.Proofs.Range.Limit
import DateSpan.Proofs.Version.Reading

/-! Overlaps of ranges. The overlap starts at the later start and ends at the earlier end; it is no
range only where it would start after the calendar. -/

namespace DateSpan

theorem milliseconds_lt_floatLimit : 1000 * versionSeconds < floatLimit := by
  decide +kernel

namespace Version

theorem ofEpoch_seconds (v : Version) : ofEpoch (1000 * v.seconds) = .ok v := by
  have hlimit := milliseconds_lt_floatLimit
  have hv := v.inCalendar
  have hdiv : 1000 * (v.seconds : Int) / 1000 = v.seconds := by omega
  rw [ofEpoch, if_neg (by omega), if_neg (by omega), hdiv, ofSeconds?_eq_some.mpr rfl]

/-- The first second after the calendar is no version. -/
theorem ofEpoch_versionSeconds :
    ofEpoch (1000 * versionSeconds) =
      .error (.epochUnreachable (.int (1000 * versionSeconds))) := by
  have hlimit := milliseconds_lt_floatLimit
  rw [ofEpoch, if_neg (by omega), if_neg (by decide)]
  rfl

end Version

namespace Range

/-! ## Edges -/

/-- A limit within the calendar gives the closed anchor whose range has it as its edge. -/
theorem edgeVersion_eq_ok {l : Limit} (h : ∀ n, l = .second n → 0 ≤ n ∧ n < versionSeconds) :
    ∃ edge : Option Version, edgeVersion l = .ok edge ∧
      (l ≠ .above → ∀ upper, Bounds.first ⟨edge.map .closed, upper⟩ = l) ∧
      (l ≠ .below → ∀ lower, Bounds.last ⟨lower, edge.map .closed⟩ = l) := by
  cases l with
  | below => exact ⟨none, rfl, fun _ _ => rfl, fun hne => absurd rfl hne⟩
  | above => exact ⟨none, rfl, fun hne => absurd rfl hne, fun _ _ => rfl⟩
  | second n =>
    obtain ⟨h₀, h₁⟩ := h n rfl
    obtain ⟨m, rfl⟩ := Int.eq_ofNat_of_zero_le h₀
    refine ⟨some ⟨m, by omega⟩, ?_, ?_, ?_⟩
    · have hm := Version.ofEpoch_seconds ⟨m, by omega⟩
      rw [edgeVersion, hm]
      rfl
    · intro _ upper
      exact congrArg Limit.second (Anchor.lowerSecond_closed _)
    · intro _ lower
      exact congrArg Limit.second (Anchor.upperSecond_closed _)

theorem present_iff {b : Bounds} : b.isAbsent = false ↔ b.first ≠ .below ∨ b.last ≠ .above := by
  rw [Ne, Ne, b.first_eq_below_iff, b.last_eq_above_iff, Bounds.isAbsent, Bool.and_eq_false_iff,
    Option.isNone_eq_false_iff, Option.isNone_eq_false_iff, Option.isSome_iff_ne_none,
    Option.isSome_iff_ne_none]

theorem reversed?_closed {lower upper : Option Version}
    (h : Bounds.first ⟨lower.map .closed, upper.map .closed⟩ ≤
      Bounds.last ⟨lower.map .closed, upper.map .closed⟩) :
    Bounds.reversed? ⟨lower.map .closed, upper.map .closed⟩ = none := by
  cases lower with
  | none => rfl
  | some v =>
    cases upper with
    | none => rfl
    | some w =>
      have hle : v.seconds ≤ w.seconds := by
        have hle := (Limit.second_le_second _ _).mp h
        simpa using hle
      exact if_neg (Nat.not_lt.mpr hle)

/-! ## Overlaps -/

theorem max_first_le_min_last {r s : Range} (h : ¬ r.startsAfter s) (h' : ¬ r.endsBefore s) :
    max r.first s.first ≤ min r.last s.last := by
  rw [startsAfter_iff, not_lt] at h
  rw [endsBefore_iff, not_lt] at h'
  exact max_le (le_min r.first_le_last h) (le_min h' s.first_le_last)

theorem max_first_bounds {r s : Range} {n : Int} (h : max r.first s.first = .second n) :
    0 ≤ n ∧ n ≤ versionSeconds := by
  rcases max_choice r.first s.first with hmax | hmax
  · exact Bounds.first_bounds (hmax.symm.trans h)
  · exact Bounds.first_bounds (hmax.symm.trans h)

theorem min_last_bounds {r s : Range} {n : Int} (h : min r.last s.last = .second n) :
    0 ≤ n ∧ n < versionSeconds := by
  constructor
  · have hzero : Limit.second 0 ≤ .second n := h ▸ le_min r.zero_le_last s.zero_le_last
    exact (Limit.second_le_second 0 n).mp hzero
  · rcases min_choice r.last s.last with hmin | hmin
    · exact Bounds.last_lt (hmin.symm.trans h)
    · exact Bounds.last_lt (hmin.symm.trans h)

/-- The overlap has closed anchors at the later start and the earlier end. -/
structure IsOverlap (r s t : Range) : Prop where
  first : t.first = max r.first s.first
  last : t.last = min r.last s.last
  closed : ∀ a, t.lower = some a ∨ t.upper = some a → a.isOpen = false

namespace IsOverlap

variable {r s t : Range}

theorem contains_iff (h : IsOverlap r s t) (v : Version) :
    t.contains v ↔ r.contains v ∧ s.contains v := by
  rw [Range.contains_iff, Range.contains_iff, Range.contains_iff, h.first, h.last, max_le_iff,
    le_min_iff]
  exact and_and_and_comm

/-- The overlap is the greatest range in both. -/
theorem includes_iff (h : IsOverlap r s t) (x : Range) :
    t.includes x ↔ r.includes x ∧ s.includes x := by
  rw [Range.includes_iff, Range.includes_iff, Range.includes_iff, h.first, h.last, max_le_iff,
    le_min_iff]
  exact and_and_and_comm

theorem lower_eq_none_iff (h : IsOverlap r s t) :
    t.lower = none ↔ r.lower = none ∧ s.lower = none := by
  rw [← Bounds.first_eq_below_iff, ← Bounds.first_eq_below_iff, ← Bounds.first_eq_below_iff, h.first,
    ← Limit.le_below_iff, ← Limit.le_below_iff, ← Limit.le_below_iff, max_le_iff]

theorem upper_eq_none_iff (h : IsOverlap r s t) :
    t.upper = none ↔ r.upper = none ∧ s.upper = none := by
  rw [← Bounds.last_eq_above_iff, ← Bounds.last_eq_above_iff, ← Bounds.last_eq_above_iff, h.last,
    ← Limit.above_le_iff, ← Limit.above_le_iff, ← Limit.above_le_iff, le_min_iff]

end IsOverlap

theorem intersection_eq {r s : Range} (h : ¬ r.startsAfter s) (h' : ¬ r.endsBefore s) :
    r.intersection s = (do
      let lower ← edgeVersion (max r.first s.first)
      let upper ← edgeVersion (min r.last s.last)
      let overlap ← ofBounds ⟨lower.map Anchor.closed, upper.map Anchor.closed⟩
      return some overlap) := by
  rw [intersection, if_neg]
  · rfl
  · rw [Bool.or_eq_true]
    exact not_or.mpr ⟨h, h'⟩

theorem intersection_of_apart {r s : Range} (h : r.startsAfter s ∨ r.endsBefore s) :
    r.intersection s = .ok none := by
  rw [intersection, if_pos]
  rwa [Bool.or_eq_true]

theorem intersection_of_early {r s : Range} (h : ¬ r.startsAfter s) (h' : ¬ r.endsBefore s)
    (hearly : max r.first s.first < .second versionSeconds) :
    ∃ t, r.intersection s = .ok (some t) ∧ IsOverlap r s t := by
  have hle := max_first_le_min_last h h'
  have hzero : .second 0 ≤ min r.last s.last := le_min r.zero_le_last s.zero_le_last
  have habove : max r.first s.first ≠ .above := by
    intro heq
    rw [heq] at hearly
    exact Limit.not_above_lt _ hearly
  have hbelow : min r.last s.last ≠ .below := by
    intro heq
    rw [heq] at hzero
    cases hzero
  have hseconds : ∀ n, max r.first s.first = .second n → 0 ≤ n ∧ n < versionSeconds := by
    intro n hn
    rw [hn] at hearly
    exact ⟨(max_first_bounds hn).1, Limit.second_lt_second_iff.mp hearly⟩
  obtain ⟨lower, hlower, hfirst, -⟩ := edgeVersion_eq_ok hseconds
  obtain ⟨upper, hupper, -, hlast⟩ := edgeVersion_eq_ok fun n (hn : min r.last s.last = _) =>
    min_last_bounds hn
  have hfirst := hfirst habove (upper.map .closed)
  have hlast := hlast hbelow (lower.map .closed)
  have hpresent : Bounds.isAbsent ⟨lower.map .closed, upper.map .closed⟩ = false := by
    rw [present_iff, hfirst, hlast]
    rcases present_iff.mp r.present with hne | hne
    · left
      intro heq
      exact hne (Limit.le_below_iff.mp (heq ▸ le_max_left r.first s.first))
    · right
      intro heq
      exact hne (Limit.above_le_iff.mp (heq ▸ min_le_left r.last s.last))
  have hordered : Bounds.reversed? ⟨lower.map .closed, upper.map .closed⟩ = none :=
    reversed?_closed (by rw [hfirst, hlast]; exact hle)
  have hinhabited : Bounds.isHollow ⟨lower.map .closed, upper.map .closed⟩ = false := by
    rw [Bounds.isHollow_eq_false_iff, hfirst, hlast]
    exact ⟨hle, hzero⟩
  refine ⟨⟨_, hpresent, hordered, hinhabited⟩, ?_, hfirst, hlast, ?_⟩
  · rw [intersection_eq h h', hlower, hupper]
    change (do return some (← ofBounds _)) = _
    rw [ofBounds_eq_ok hpresent hordered hinhabited]
    rfl
  · rintro a (ha | ha)
    · obtain ⟨v, -, rfl⟩ := Option.map_eq_some_iff.mp ha
      rfl
    · obtain ⟨v, -, rfl⟩ := Option.map_eq_some_iff.mp ha
      rfl

theorem intersection_of_late {r s : Range} (h : ¬ r.startsAfter s) (h' : ¬ r.endsBefore s)
    (hlate : .second versionSeconds ≤ max r.first s.first) :
    r.intersection s = .error (.epochUnreachable (.int (1000 * versionSeconds))) ∧
      r.upper = none ∧ s.upper = none := by
  have hle := max_first_le_min_last h h'
  have hmax : max r.first s.first = .second versionSeconds := by
    cases heq : max r.first s.first with
    | below =>
      rw [heq, Limit.le_below_iff] at hlate
      cases hlate
    | above =>
      rcases max_choice r.first s.first with hmax | hmax
      · exact absurd (hmax.symm.trans heq) r.first_ne_above
      · exact absurd (hmax.symm.trans heq) s.first_ne_above
    | second n =>
      rw [heq] at hlate
      have hn := (Limit.second_le_second _ _).mp hlate
      have hbound := (max_first_bounds heq).2
      rw [le_antisymm hbound hn]
  have hmin : min r.last s.last = .above := by
    cases heq : min r.last s.last with
    | below =>
      rw [hmax, heq, Limit.le_below_iff] at hle
      cases hle
    | above => rfl
    | second n =>
      rw [hmax, heq] at hle
      have hn := (Limit.second_le_second _ _).mp hle
      have hbound := (min_last_bounds heq).2
      omega
  refine ⟨?_, ?_, ?_⟩
  · rw [intersection_eq h h', hmax, edgeVersion, Version.ofEpoch_versionSeconds]
    rfl
  · rw [← r.last_eq_above_iff]
    exact Limit.above_le_iff.mp (hmin ▸ min_le_left r.last s.last)
  · rw [← s.last_eq_above_iff]
    exact Limit.above_le_iff.mp (hmin ▸ min_le_right r.last s.last)

/-- Ranges that are both unbounded above are not apart. -/
theorem not_apart {r s : Range} (hr : r.upper = none) (hs : s.upper = none) :
    ¬ r.startsAfter s ∧ ¬ r.endsBefore s := by
  rw [← Bounds.last_eq_above_iff] at hr hs
  rw [startsAfter_iff, endsBefore_iff, hr, hs]
  exact ⟨Limit.not_above_lt _, Limit.not_above_lt _⟩

/-- The range starts after the last version. -/
def StartsLate (r : Range) : Prop :=
  .second versionSeconds ≤ r.first

/-- The ranges are apart, or they overlap, or the overlap would start too late. -/
theorem intersection_cases (r s : Range) :
    (r.startsAfter s ∨ r.endsBefore s) ∧ r.intersection s = .ok none ∨
    (∃ t, r.intersection s = .ok (some t) ∧ IsOverlap r s t) ∧
      ¬ (r.startsAfter s ∨ r.endsBefore s) ∧ ¬ (r.StartsLate ∨ s.StartsLate) ∨
    (∃ f, r.intersection s = .error f ∧ f.classOf = .logic) ∧
      ¬ (r.startsAfter s ∨ r.endsBefore s) ∧ r.upper = none ∧ s.upper = none ∧
      (r.StartsLate ∨ s.StartsLate) := by
  by_cases hapart : r.startsAfter s ∨ r.endsBefore s
  · exact .inl ⟨hapart, intersection_of_apart hapart⟩
  obtain ⟨h, h'⟩ := not_or.mp hapart
  by_cases hlate : r.StartsLate ∨ s.StartsLate
  · obtain ⟨heq, hr, hs⟩ := intersection_of_late h h' (le_max_iff.mpr hlate)
    exact .inr (.inr ⟨⟨_, heq, rfl⟩, hapart, hr, hs, hlate⟩)
  · have hearly : max r.first s.first < .second versionSeconds :=
      not_le.mp fun hle => hlate (le_max_iff.mp hle)
    exact .inr (.inl ⟨intersection_of_early h h' hearly, hapart, hlate⟩)

theorem disjoint_of_apart {r s : Range} (h : r.startsAfter s ∨ r.endsBefore s) (v : Version) :
    ¬ (r.contains v ∧ s.contains v) := by
  rw [contains_iff, contains_iff]
  rintro ⟨⟨hr, hr'⟩, hs, hs'⟩
  rcases h with h | h
  · exact absurd (hr.trans hs') (not_le.mpr h)
  · exact absurd (hs.trans hr') (not_le.mpr h)

/-- The overlap of two ranges. There is none just when they are apart, and no version then lies in
both; else it has closed anchors and is the greatest range in both. It is refused just when neither
range ends and one of them starts after the last version. -/
theorem intersection_spec (r s : Range) :
    (r.intersection s = .ok none ↔ r.startsAfter s ∨ r.endsBefore s) ∧
    (r.intersection s = .ok none → ∀ v, ¬ (r.contains v ∧ s.contains v)) ∧
    (∀ t, r.intersection s = .ok (some t) →
      (∀ a, t.lower = some a ∨ t.upper = some a → a.isOpen = false) ∧
      (∀ v, t.contains v ↔ r.contains v ∧ s.contains v) ∧
      (t.lower = none ↔ r.lower = none ∧ s.lower = none) ∧
      (t.upper = none ↔ r.upper = none ∧ s.upper = none) ∧
      ∀ x : Range, t.includes x ↔ r.includes x ∧ s.includes x) ∧
    ((∃ f, r.intersection s = .error f) ↔
      r.upper = none ∧ s.upper = none ∧ (r.StartsLate ∨ s.StartsLate)) ∧
    ∀ f, r.intersection s = .error f → f.classOf = .logic := by
  rcases intersection_cases r s with
    ⟨hapart, heq⟩ | ⟨⟨t, heq, ht⟩, hapart, hlate⟩ | ⟨⟨f, heq, hf⟩, hapart, hr, hs, hlate⟩
  · refine ⟨iff_of_true heq hapart, fun _ => disjoint_of_apart hapart, ?_, ?_, ?_⟩
    · intro t h
      rw [heq] at h
      cases h
    · constructor
      · rintro ⟨f, h⟩
        rw [heq] at h
        cases h
      · rintro ⟨hr, hs, -⟩
        exact absurd hapart (not_or.mpr (not_apart hr hs))
    · intro f h
      rw [heq] at h
      cases h
  · rw [heq]
    refine ⟨iff_of_false nofun hapart, nofun, ?_, ?_, nofun⟩
    · rintro t' h
      cases h
      exact ⟨ht.closed, ht.contains_iff, ht.lower_eq_none_iff, ht.upper_eq_none_iff,
        ht.includes_iff⟩
    · exact iff_of_false nofun fun h => hlate h.2.2
  · rw [heq]
    refine ⟨iff_of_false nofun hapart, nofun, nofun, iff_of_true ⟨f, rfl⟩ ⟨hr, hs, hlate⟩, ?_⟩
    rintro f' h
    cases h
    exact hf

end Range

end DateSpan
