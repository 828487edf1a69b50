import DateSpan.Proofs.Outcome
import DateSpan.Proofs.Range.Order
import DateSpan.Range.Coercion
import Mathlib.Data.List.Sort

/-! Greatest and least ranges. Each stands at the end of a stable sort, so it is the last in the list of those
that none exceeds, and the order of the list decides only between ranges that tie. -/

namespace DateSpan.Range

variable {c : Range → Range → Ordering} {cmp : Range → Range → Except Fault Ordering}
  {r m m' : Range} {rs rs' : List Range}

/-! ## Greatest ranges -/

/-- The first range compares as greater, or they tie. -/
def AtLeast (cmp : Range → Range → Except Fault Ordering) (r s : Range) : Prop :=
  ∃ o, cmp r s = .ok o ∧ o.isGE

/-- The range stands in the list and is at least as great as all in it, which none after it is. -/
def LastGreatest (cmp : Range → Range → Except Fault Ordering) (rs : List Range) (m : Range) : Prop :=
  ∃ before after, rs = before ++ m :: after ∧ (∀ r ∈ rs, AtLeast cmp m r) ∧
    ∀ r ∈ after, ¬ ∀ s ∈ rs, AtLeast cmp r s

theorem atLeast_iff (hcmp : ∀ r s, cmp r s = .ok (c r s)) : AtLeast cmp r m ↔ (c r m).isGE := by
  rw [AtLeast, hcmp]
  constructor
  · rintro ⟨o, ho, hge⟩
    cases ho
    exact hge
  · exact fun h => ⟨_, rfl, h⟩

/-- The range stands in the list, none there is greater, and all after it are less. -/
def EndsGreatest (c : Range → Range → Ordering) (rs : List Range) (m : Range) : Prop :=
  ∃ before after, rs = before ++ m :: after ∧ (∀ r ∈ rs, (c m r).isGE) ∧ ∀ r ∈ after, c r m = .lt

theorem EndsGreatest.lastGreatest (hcmp : ∀ r s, cmp r s = .ok (c r s)) (h : EndsGreatest c rs m) :
    LastGreatest cmp rs m := by
  obtain ⟨before, after, rfl, hge, hlt⟩ := h
  refine ⟨before, after, rfl, fun r hr => (atLeast_iff hcmp).mpr (hge r hr), fun r hr hall => ?_⟩
  have hrm := (atLeast_iff hcmp).mp (hall m (List.mem_append_right _ (List.mem_cons_self ..)))
  rw [hlt r hr] at hrm
  cases hrm

theorem LastGreatest.mem (h : LastGreatest cmp rs m) : m ∈ rs := by
  obtain ⟨before, after, rfl, -⟩ := h
  exact List.mem_append_right _ (List.mem_cons_self ..)

theorem LastGreatest.atLeast (h : LastGreatest cmp rs m) (hr : r ∈ rs) : AtLeast cmp m r := by
  obtain ⟨before, after, -, hall, -⟩ := h
  exact hall r hr

/-! ## Sorting -/

/-- The first range comes before the second or ties with it. -/
def Precedes (c : Range → Range → Ordering) (r s : Range) : Prop :=
  (c r s).isLE = true

instance : DecidableRel (Precedes c) :=
  fun r s => inferInstanceAs (Decidable ((c r s).isLE = true))

theorem not_precedes : ¬ Precedes c r m ↔ c r m = .gt := by
  rw [Precedes]
  cases c r m <;> decide

section Comparison

variable [Std.TransCmp c]

instance : IsTrans Range (Precedes c) :=
  ⟨fun _ _ _ => Std.TransCmp.isLE_trans⟩

instance : Std.Total (Precedes c) := by
  refine ⟨fun r s => or_iff_not_imp_left.mpr fun h => ?_⟩
  rw [not_precedes, Std.OrientedCmp.gt_iff_lt] at h
  exact congrArg Ordering.isLE h

end Comparison

theorem insertBy_eq (hcmp : ∀ r s, cmp r s = .ok (c r s)) (r : Range) (rs : List Range) :
    insertBy cmp r rs = .ok (rs.orderedInsert (Precedes c) r) := by
  induction rs with
  | nil => rfl
  | cons s rs ih =>
    rw [insertBy, hcmp, ih, List.orderedInsert_cons]
    exact (apply_ite Except.ok _ _ _).symm

/-- A comparison that never fails sorts as the library does. -/
theorem sortBy_eq (hcmp : ∀ r s, cmp r s = .ok (c r s)) (rs : List Range) :
    sortBy cmp rs = .ok (rs.insertionSort (Precedes c)) := by
  induction rs with
  | nil => rfl
  | cons r rs ih =>
    rw [sortBy, ih, List.insertionSort_cons]
    exact insertBy_eq hcmp r _

/-! ## The end of a sorted list -/

/-- Of a range and one that stands after it, the greater; the second if they tie. -/
def laterMax (c : Range → Range → Ordering) (r m : Range) : Range :=
  if c r m = .gt then r else m

variable [Std.TransCmp c]

theorem getLast?_orderedInsert (r : Range) (h : rs.Pairwise (Precedes c)) :
    (rs.orderedInsert (Precedes c) r).getLast? = some (rs.getLast?.elim r (laterMax c r)) := by
  induction rs with
  | nil => rfl
  | cons s rs ih =>
    obtain ⟨hs, hrs⟩ := List.pairwise_cons.mp h
    rw [List.orderedInsert_cons, List.getLast?_cons]
    split
    · -- What goes before `s` is no greater than the end of the list either.
      rename_i hrs'
      have hend : Precedes c r (rs.getLast?.getD s) := by
        cases hlast : rs.getLast? with
        | none => exact hrs'
        | some m => exact Std.TransCmp.isLE_trans hrs' (hs m (List.mem_of_getLast? hlast))
      rw [List.getLast?_cons, List.getLast?_cons]
      exact congrArg some (if_neg fun hgt => not_precedes.mpr hgt hend).symm
    · rename_i hrs'
      rw [List.getLast?_cons, ih hrs]
      cases rs.getLast? with
      | none => exact congrArg some (if_pos (not_precedes.mp hrs')).symm
      | some m => rfl

theorem isGE_self (r : Range) : (c r r).isGE := by
  have heq : c r r = .eq := Std.ReflCmp.compare_self
  rw [heq]
  rfl

theorem endsGreatest_singleton (r : Range) : EndsGreatest c [r] r :=
  ⟨[], [], rfl, List.forall_mem_singleton.mpr (isGE_self r), nofun⟩

theorem EndsGreatest.cons (h : EndsGreatest c rs m) (r : Range) :
    EndsGreatest c (r :: rs) (laterMax c r m) := by
  obtain ⟨before, after, rfl, hge, hlt⟩ := h
  rw [laterMax]
  split
  · rename_i hgt
    have hall : ∀ s ∈ before ++ m :: after, c r s = .gt :=
      fun s hs => Std.TransCmp.gt_of_gt_of_isGE hgt (hge s hs)
    refine ⟨[], _, rfl, List.forall_mem_cons.mpr ⟨isGE_self r, ?_⟩, ?_⟩
    · exact fun s hs => congrArg Ordering.isGE (hall s hs)
    · exact fun s hs => Std.OrientedCmp.gt_iff_lt.mp (hall s hs)
  · rename_i hle
    have hmr : (c m r).isGE := Std.OrientedCmp.isGE_iff_isLE.mpr (not_not.mp (mt not_precedes.mp hle))
    exact ⟨r :: before, after, rfl, List.forall_mem_cons.mpr ⟨hmr, hge⟩, hlt⟩

theorem endsGreatest_getLast? (h : (rs.insertionSort (Precedes c)).getLast? = some m) :
    EndsGreatest c rs m := by
  induction rs generalizing m with
  | nil => cases h
  | cons r rs ih =>
    rw [List.insertionSort_cons, getLast?_orderedInsert r (List.pairwise_insertionSort _ rs)] at h
    cases hlast : (rs.insertionSort (Precedes c)).getLast? with
    | none =>
      have hnil : rs = [] := by
        rw [← List.length_eq_zero_iff, ← List.length_insertionSort (Precedes c),
          List.length_eq_zero_iff, ← List.getLast?_eq_none_iff, hlast]
      rw [hlast] at h
      cases h
      rw [hnil]
      exact endsGreatest_singleton r
    | some m' =>
      rw [hlast] at h
      cases h
      exact (ih hlast).cons r

theorem getLast?_sortBy (hcmp : ∀ r s, cmp r s = .ok (c r s)) (rs : List Range) :
    ∃ found, (sortBy cmp rs).map List.getLast? = .ok found ∧ (found = none ↔ rs = []) ∧
      ∀ m, found = some m → LastGreatest cmp rs m := by
  refine ⟨(rs.insertionSort (Precedes c)).getLast?, ?_, ?_, ?_⟩
  · rw [sortBy_eq hcmp]
    rfl
  · rw [List.getLast?_eq_none_iff, ← List.length_eq_zero_iff, List.length_insertionSort,
      List.length_eq_zero_iff]
  · exact fun m hm => (endsGreatest_getLast? hm).lastGreatest hcmp

/-- Of the same ranges in another order, the one that is found ties with the first. -/
theorem LastGreatest.tie (hcmp : ∀ r s, cmp r s = .ok (c r s)) (hperm : rs'.Perm rs)
    (h : LastGreatest cmp rs m) (h' : LastGreatest cmp rs' m') : cmp m m' = .ok .eq := by
  have hge := (atLeast_iff hcmp).mp (h.atLeast (hperm.mem_iff.mp h'.mem))
  have hle := Std.OrientedCmp.isGE_iff_isLE.mp
    ((atLeast_iff hcmp).mp (h'.atLeast (hperm.mem_iff.mpr h.mem)))
  rw [hcmp]
  cases hc : c m m' with
  | eq => rfl
  | lt =>
    rw [hc] at hge
    cases hge
  | gt =>
    rw [hc] at hle
    cases hle

theorem getLast?_sortBy_perm (hcmp : ∀ r s, cmp r s = .ok (c r s)) (hperm : rs'.Perm rs)
    {found found' : Option Range} (h : (sortBy cmp rs).map List.getLast? = .ok found)
    (h' : (sortBy cmp rs').map List.getLast? = .ok found') :
    Option.Rel (fun m m' => cmp m m' = .ok .eq) found found' := by
  obtain ⟨x, hx, hnone, hlast⟩ := getLast?_sortBy hcmp rs
  obtain ⟨x', hx', hnone', hlast'⟩ := getLast?_sortBy hcmp rs'
  cases h.symm.trans hx
  cases h'.symm.trans hx'
  cases found with
  | none =>
    have hnil : rs' = [] := List.perm_nil.mp (hnone.mp rfl ▸ hperm)
    rw [hnone'.mpr hnil]
    exact .none
  | some m =>
    cases found' with
    | none =>
      have hnil : rs = [] := List.perm_nil.mp (hnone'.mp rfl ▸ hperm.symm)
      cases hnone.mpr hnil
    | some m' => exact .some ((hlast m rfl).tie hcmp hperm (hlast' m' rfl))

/-! ## Both ends of an order -/

theorem last_le_of_atLeast {rule : TieRule} (h : AtLeast (reverseOrder (.ok rule)) m r) :
    m.last ≤ r.last := by
  have hge := (atLeast_iff (reverseOrder_eq_byEnd rule)).mp h
  have hle : (compare m.last r.last).isLE := by
    rw [Std.OrientedCmp.isGE_iff_isLE] at hge
    cases rule with
    | leave => exact hge
    | refine => exact Ordering.isLE_left_of_isLE_then hge
  rwa [← Limit.order_eq_compare] at hle

/-- Whatever denotes ranges, a greatest and a least of them is found just when there is one: the last in
the list of those that are at least as great as all in ascending order, and of those that are so in
descending order, which end first. The order of the list decides only between ranges that tie. -/
theorem extremes {p : Policy} {rule : TieRule} (hties : p.ties = .ok rule) {items : List Datum}
    (hranges : items.mapM (ofDatum p) = .ok rs) :
    ∃ greatest least,
      (items.mapM (ofDatum p) >>= greatest? p.ties) = .ok greatest ∧
      (items.mapM (ofDatum p) >>= least? p.ties) = .ok least ∧
      (greatest = none ↔ items = []) ∧ (least = none ↔ items = []) ∧
      (∀ m, greatest = some m → LastGreatest (order p.ties) rs m) ∧
      (∀ m, least = some m → LastGreatest (reverseOrder p.ties) rs m ∧ ∀ r ∈ rs, m.last ≤ r.last) ∧
      ∀ items' : List Datum, items'.Perm items → ∃ greatest' least',
        (items'.mapM (ofDatum p) >>= greatest? p.ties) = .ok greatest' ∧
        (items'.mapM (ofDatum p) >>= least? p.ties) = .ok least' ∧
        Option.Rel (fun m m' => order p.ties m m' = .ok .eq) greatest greatest' ∧
        Option.Rel (fun m m' => reverseOrder p.ties m m' = .ok .eq) least least' := by
  have hopposite : Std.TransCmp fun r s => byEnd rule s r := Std.TransCmp.opposite
  have hnil : rs = [] ↔ items = [] := by
    rw [← List.length_eq_zero_iff, ← (mapM_eq_ok_iff.mp hranges).length_eq, List.length_eq_zero_iff]
  rw [hties, hranges]
  obtain ⟨greatest, hgreatest, hnone, hlast⟩ := getLast?_sortBy (order_eq_byStart rule) rs
  obtain ⟨least, hleast, hnone', hlast'⟩ := getLast?_sortBy (reverseOrder_eq_byEnd rule) rs
  refine ⟨greatest, least, hgreatest, hleast, hnone.trans hnil, hnone'.trans hnil, hlast, ?_, ?_⟩
  · intro m hm
    exact ⟨hlast' m hm, fun r hr => last_le_of_atLeast ((hlast' m hm).atLeast hr)⟩
  · intro items' hperm
    obtain ⟨rs', hranges', hperm'⟩ := mapM_perm hperm hranges
    obtain ⟨greatest', hgreatest', -⟩ := getLast?_sortBy (order_eq_byStart rule) rs'
    obtain ⟨least', hleast', -⟩ := getLast?_sortBy (reverseOrder_eq_byEnd rule) rs'
    rw [hranges']
    exact ⟨greatest', least', hgreatest', hleast',
      getLast?_sortBy_perm (order_eq_byStart rule) hperm' hgreatest hgreatest',
      getLast?_sortBy_perm (reverseOrder_eq_byEnd rule) hperm' hleast hleast'⟩

/-- Of two ranges that start together the greatest is found, though neither is greater than the other. -/
theorem extremes_tied :
    ∃ r s : Range, Policy.plain.ties = .ok .leave ∧
      [Datum.range r, .range s].mapM (ofDatum .plain) = .ok [r, s] ∧
      order Policy.plain.ties r s = .ok .eq ∧ r ≠ s ∧
      ∃ m, ([Datum.range r, .range s].mapM (ofDatum .plain) >>= greatest? Policy.plain.ties) =
          .ok (some m) ∧ LastGreatest (order Policy.plain.ties) [r, s] m := by
  let r : Range := ⟨⟨some (.closed ⟨0, by decide⟩), none⟩, rfl, rfl, by decide⟩
  let s : Range :=
    ⟨⟨some (.closed ⟨0, by decide⟩), some (.closed ⟨1, by decide⟩)⟩, rfl, by decide, by decide⟩
  have hranges : [Datum.range r, .range s].mapM (ofDatum .plain) = .ok [r, s] := rfl
  obtain ⟨greatest, -, hgreatest, -, hnone, -, hlast, -⟩ := extremes (p := .plain) rfl hranges
  cases greatest with
  | none => cases hnone.mp rfl
  | some m => exact ⟨r, s, rfl, hranges, rfl, by decide, m, hgreatest, hlast m rfl⟩

end DateSpan.Range
