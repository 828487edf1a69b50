import DateSpan.Proofs.Range.Limit
import DateSpan.Range.Order

/-! Orders of ranges. Ascending order is that of the starts and descending order that of the ends, and the
refining rule compares the other ends too. Ranges that are apart are told first, but no otherwise than
their ends would tell them. -/

namespace DateSpan

namespace Limit

theorem order_swap (a b : Limit) : (a.order b).swap = b.order a := by
  cases a with
  | second m =>
    cases b with
    | second n =>
      have hints : compare n m = (compare m n).swap := Std.OrientedCmp.eq_swap
      exact hints.symm
    | _ => rfl
  | _ => cases b <;> rfl

theorem order_eq_compare (a b : Limit) : a.order b = compare a b := by
  refine ((compare_iff a b).mpr ?_).symm
  have hswap := order_swap a b
  cases h : a.order b with
  | lt => exact congrArg Ordering.isLT h
  | eq =>
    rw [h] at hswap
    exact eq_of_le_of_le (congrArg Ordering.isLE h) (congrArg Ordering.isLE hswap.symm)
  | gt =>
    rw [h] at hswap
    exact congrArg Ordering.isLT hswap.symm

end Limit

namespace Range

variable {ties ties' : Except Fault TieRule} {r s : Range} {first second : Ordering}

/-! ## Rules for ties -/

/-- The rule is read only for a tie. -/
theorem refined_of_ne (h : first ≠ .eq) : refined ties first second = .ok first := by
  cases first with
  | eq => exact absurd rfl h
  | _ => rfl

theorem refined_leave : refined (.ok .leave) first second = .ok first := by
  cases first <;> rfl

theorem refined_refine : refined (.ok .refine) first second = .ok (first.then second) := by
  cases first <;> rfl

/-! ## Ranges that are apart -/

theorem first_lt_of_endsBefore (h : r.endsBefore s) : r.first < s.first :=
  lt_of_le_of_lt r.first_le_last h

theorem last_lt_of_endsBefore (h : r.endsBefore s) : r.last < s.last :=
  lt_of_lt_of_le h s.first_le_last

/-- To start after a range is to have it end before. -/
theorem startsAfter_eq (r s : Range) : r.startsAfter s = s.endsBefore r := rfl

theorem order_eq_refined (ties : Except Fault TieRule) (r s : Range) :
    order ties r s = refined ties (compare r.first s.first) (compare r.last s.last) := by
  rw [order, startsAfter_eq, Limit.order_eq_compare, Limit.order_eq_compare]
  by_cases hbefore : r.endsBefore s
  · rw [if_pos hbefore, compare_lt_iff_lt.mpr (first_lt_of_endsBefore hbefore)]
    rfl
  · by_cases hafter : s.endsBefore r
    · rw [if_neg hbefore, if_pos hafter, compare_gt_iff_gt.mpr (first_lt_of_endsBefore hafter)]
      rfl
    · rw [if_neg hbefore, if_neg hafter]

theorem reverseOrder_eq_refined (ties : Except Fault TieRule) (r s : Range) :
    reverseOrder ties r s = refined ties (compare s.last r.last) (compare s.first r.first) := by
  rw [reverseOrder, startsAfter_eq, Limit.order_eq_compare, Limit.order_eq_compare]
  by_cases hbefore : r.endsBefore s
  · rw [if_pos hbefore, compare_gt_iff_gt.mpr (last_lt_of_endsBefore hbefore)]
    rfl
  · by_cases hafter : s.endsBefore r
    · rw [if_neg hbefore, if_pos hafter, compare_lt_iff_lt.mpr (last_lt_of_endsBefore hafter)]
      rfl
    · rw [if_neg hbefore, if_neg hafter]

/-! ## Comparisons under a rule -/

/-- By starts, and under the refining rule by ends where the starts are the same. -/
def byStart : TieRule → Range → Range → Ordering
  | .leave => compareOn fun r => r.first
  | .refine => compareLex (compareOn fun r => r.first) (compareOn fun r => r.last)

/-- By ends, and under the refining rule by starts where the ends are the same. -/
def byEnd : TieRule → Range → Range → Ordering
  | .leave => compareOn fun r => r.last
  | .refine => compareLex (compareOn fun r => r.last) (compareOn fun r => r.first)

instance (rule : TieRule) : Std.TransCmp (byStart rule) := by
  cases rule
  · exact inferInstanceAs (Std.TransCmp (compareOn _))
  · exact inferInstanceAs (Std.TransCmp (compareLex (compareOn _) (compareOn _)))

instance (rule : TieRule) : Std.TransCmp (byEnd rule) := by
  cases rule
  · exact inferInstanceAs (Std.TransCmp (compareOn _))
  · exact inferInstanceAs (Std.TransCmp (compareLex (compareOn _) (compareOn _)))

theorem order_eq_byStart (rule : TieRule) (r s : Range) :
    order (.ok rule) r s = .ok (byStart rule r s) := by
  rw [order_eq_refined]
  cases rule with
  | leave => exact refined_leave
  | refine => exact refined_refine

/-- Descending order is that of the ends with its sides exchanged. -/
theorem reverseOrder_eq_byEnd (rule : TieRule) (r s : Range) :
    reverseOrder (.ok rule) r s = .ok (byEnd rule s r) := by
  rw [reverseOrder_eq_refined]
  cases rule with
  | leave => exact refined_leave
  | refine => exact refined_refine

theorem byStart_refine_eq_iff (r s : Range) : byStart .refine r s = .eq ↔ r.equals s := by
  rw [equals_iff, byStart, compareLex, Ordering.then_eq_eq]
  exact and_congr compare_eq_iff_eq compare_eq_iff_eq

theorem byEnd_refine_eq_iff (r s : Range) : byEnd .refine r s = .eq ↔ r.equals s := by
  rw [equals_iff, byEnd, compareLex, Ordering.then_eq_eq, and_comm]
  exact and_congr compare_eq_iff_eq compare_eq_iff_eq

theorem order_congr (h : r.first ≠ s.first) : order ties r s = order ties' r s := by
  have hne : compare r.first s.first ≠ .eq := mt compare_eq_iff_eq.mp h
  rw [order_eq_refined, order_eq_refined, refined_of_ne hne, refined_of_ne hne]

theorem reverseOrder_congr (h : r.last ≠ s.last) :
    reverseOrder ties r s = reverseOrder ties' r s := by
  have hne : compare s.last r.last ≠ .eq := mt compare_eq_iff_eq.mp h.symm
  rw [reverseOrder_eq_refined, reverseOrder_eq_refined, refined_of_ne hne, refined_of_ne hne]

/-- Under each rule both orders compare ends of the ranges, one way and the other. They turn round with
their sides and are transitive, and under the refining rule only equal ranges tie. A range that ends
before another comes first, and whatever is read for a rule counts only where the first ends tie. -/
theorem order_laws (rule : TieRule) :
    (∀ r s, order (.ok rule) r s = .ok (byStart rule r s)) ∧
    (∀ r s, reverseOrder (.ok rule) r s = .ok (byEnd rule s r)) ∧
    Std.TransCmp (byStart rule) ∧ Std.TransCmp (byEnd rule) ∧
    (rule = .refine → ∀ r s, (order (.ok rule) r s = .ok .eq ↔ r.equals s) ∧
      (reverseOrder (.ok rule) r s = .ok .eq ↔ r.equals s)) ∧
    (∀ r s : Range, r.endsBefore s → s.startsAfter r ∧ order (.ok rule) r s = .ok .lt ∧
      reverseOrder (.ok rule) r s = .ok .gt) ∧
    ∀ ties r s, (order ties r s ≠ order (.ok rule) r s → r.first = s.first) ∧
      (reverseOrder ties r s ≠ reverseOrder (.ok rule) r s → r.last = s.last) := by
  refine ⟨order_eq_byStart rule, reverseOrder_eq_byEnd rule, inferInstance, inferInstance, ?_, ?_, ?_⟩
  · rintro rfl r s
    rw [order_eq_byStart, reverseOrder_eq_byEnd, Except.ok.injEq, Except.ok.injEq,
      byStart_refine_eq_iff, byEnd_refine_eq_iff, equals_iff, equals_iff]
    exact ⟨Iff.rfl, and_congr eq_comm eq_comm⟩
  · intro r s h
    exact ⟨h, if_pos h, if_pos h⟩
  · intro ties r s
    exact ⟨not_imp_comm.mp order_congr, not_imp_comm.mp reverseOrder_congr⟩

end Range

end DateSpan
