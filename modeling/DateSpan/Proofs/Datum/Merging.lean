import DateSpan.Datum.Basic

/-! Tables laid over one another, read name by name: what stands under a name in the merged table comes
from what stands under that name in the two. -/

namespace DateSpan

/-- A text is no other name. -/
theorem Datum.text_same_iff {s : String} {d : Datum} : Same (text s) d ↔ d = text s := by
  refine ⟨fun h => ?_, fun h => h ▸ same_refl _⟩
  have hatoms : [.text s] = d.atoms := h
  cases d with
  | text s' => rw [same_text.mp h]
  | float x =>
    rw [atoms, Atom.ofFloat] at hatoms
    split at hatoms
    · cases hatoms
    · split at hatoms
      · split at hatoms <;> cases hatoms
      · cases hatoms
  | datetime m offset => cases offset <;> cases hatoms
  | _ => simp [atoms, Atom.enclosed, Atom.ofRange] at hatoms

namespace Table

/-- The data under a name, in order. -/
def under (t : Table) (name : Datum) : List Datum :=
  t.filterMap fun (n, d) => if n.Same name then some d else none

theorem under_nil (name : Datum) : under [] name = [] := rfl

theorem under_cons (n d : Datum) (t : Table) (name : Datum) :
    under ((n, d) :: t) name = if n.Same name then d :: t.under name else t.under name := by
  by_cases h : n.Same name
  · rw [if_pos h]
    exact List.filterMap_cons_some (if_pos h)
  · rw [if_neg h]
    exact List.filterMap_cons_none (if_neg h)

theorem get?_eq_head? (t : Table) (name : Datum) : t.get? name = (t.under name).head? := by
  induction t with
  | nil => rfl
  | cons e t ih =>
    obtain ⟨n, d⟩ := e
    rw [get?, under_cons]
    split
    · rfl
    · exact ih

theorem has_eq (t : Table) (name : Datum) : t.has name = (t.under name).head?.isSome := by
  rw [has, get?_eq_head?]

theorem under_put_ne (t : Table) {name other : Datum} (h : ¬ other.Same name) (d : Datum) :
    (t.put name d).under other = t.under other := by
  induction t with
  | nil => rw [put, under_cons, if_neg fun hn => h hn.symm]
  | cons e t ih =>
    obtain ⟨n, d'⟩ := e
    rw [put]
    split
    · rename_i hn
      have hne : ¬ n.Same other := fun heq => h (heq.symm.trans hn)
      rw [under_cons, under_cons, if_neg hne, if_neg hne]
    · rw [under_cons, under_cons, ih]

theorem under_put_self (t : Table) (name d : Datum) :
    (t.put name d).under name = d :: (t.under name).tail := by
  induction t with
  | nil => rw [put, under_cons, if_pos name.same_refl, under_nil, List.tail_nil]
  | cons e t ih =>
    obtain ⟨n, d'⟩ := e
    rw [put]
    split
    · rename_i hn
      rw [under_cons, under_cons, if_pos hn, if_pos hn, List.tail_cons]
    · rename_i hn
      rw [under_cons, under_cons, if_neg hn, if_neg hn, ih]

theorem under_erase_ne (t : Table) {name other : Datum} (h : ¬ other.Same name) :
    (t.erase name).under other = t.under other := by
  induction t with
  | nil => rfl
  | cons e t ih =>
    obtain ⟨n, d⟩ := e
    rw [erase] at ih ⊢
    by_cases hn : n.Same name
    · have hne : ¬ n.Same other := fun heq => h (heq.symm.trans hn)
      rw [List.filter_cons_of_neg (by simpa using hn), ih, under_cons, if_neg hne]
    · rw [List.filter_cons_of_pos (by simpa using hn), under_cons, under_cons, ih]

theorem under_erase_self (t : Table) (name : Datum) : (t.erase name).under name = [] := by
  induction t with
  | nil => rfl
  | cons e t ih =>
    obtain ⟨n, d⟩ := e
    rw [erase] at ih ⊢
    by_cases hn : n.Same name
    · rw [List.filter_cons_of_neg (by simpa using hn), ih]
    · rw [List.filter_cons_of_pos (by simpa using hn), under_cons, if_neg hn, ih]

theorem erase_of_not_has {t : Table} {name : Datum} (h : t.has name = false) :
    t.erase name = t := by
  induction t with
  | nil => rfl
  | cons e t ih =>
    obtain ⟨n, d⟩ := e
    rw [has_eq, under_cons] at h
    by_cases hn : n.Same name
    · rw [if_pos hn] at h
      cases h
    · rw [if_neg hn, ← has_eq] at h
      rw [erase, List.filter_cons_of_pos (by simpa using hn)]
      exact congrArg ((n, d) :: ·) (ih h)

theorem under_congr {name other : Datum} (h : name.Same other) (t : Table) :
    t.under name = t.under other := by
  induction t with
  | nil => rfl
  | cons e t ih =>
    obtain ⟨n, d⟩ := e
    rw [under_cons, under_cons, ih]
    by_cases hn : n.Same name
    · rw [if_pos hn, if_pos (hn.trans h)]
    · rw [if_neg hn, if_neg fun hother => hn (hother.trans h.symm)]

theorem has_of_has_erase {t : Table} {name other : Datum} (h : (t.erase name).has other) :
    t.has other := by
  by_cases hn : other.Same name
  · rw [has_eq, under_congr hn, under_erase_self] at h
    cases h
  · rwa [has_eq, under_erase_ne t hn, ← has_eq] at h

/-- Each datum under a name is laid over what stood there before. -/
theorem get?_merge (base upper : Table) (name : Datum) :
    (base.merge upper).get? name =
      (upper.under name).foldl (fun below d => some (Datum.overlay below d)) (base.get? name) := by
  unfold merge
  induction upper generalizing base with
  | nil => rw [Datum.mergeEntries, under_nil, List.foldl_nil]
  | cons e upper ih =>
    obtain ⟨n, d⟩ := e
    rw [Datum.mergeEntries, ih, get?_put, under_cons]
    split
    · rename_i hn
      rw [List.foldl_cons, get?_eq_head? base n, under_congr hn, ← get?_eq_head?]
    · rfl

theorem get?_merge_congr (base : Table) {upper upper' : Table} {name : Datum}
    (h : upper'.under name = upper.under name) :
    (base.merge upper').get? name = (base.merge upper).get? name := by
  rw [get?_merge, get?_merge, h]

end Table

end DateSpan
