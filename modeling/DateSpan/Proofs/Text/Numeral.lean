import DateSpan.Text.Digit
import DateSpan.Text.Layout
import Mathlib.Algebra.Group.Nat.Defs

/-! Texts of digits as numbers: what they denote, how a number is written with a given width, and
which texts hold a number of too many digits. -/

namespace DateSpan.Text

/-- All characters are digits, and they denote the number. -/
def Numeral (cs : List Char) (n : Nat) : Prop :=
  ∃ ds : List Nat, cs.map digit? = ds.map some ∧ ofDigits ds = n

/-- Signs, letters and blanks of plain Latin text are no digits. -/
theorem digit?_eq_none {c : Char} (h : c.toNat < 0x30 ∨ 0x39 < c.toNat ∧ c.toNat < 0x660) :
    digit? c = none := by
  have hz : ∀ z ∈ zeroDigits, z = 0x30 ∨ 0x660 ≤ z := by decide
  rw [digit?, Option.map_eq_none_iff, List.find?_eq_none]
  intro z hmem
  have := hz z hmem
  simp only [Bool.and_eq_true, decide_eq_true_eq]
  omega

theorem Numeral.isSome_digit? {cs : List Char} {n : Nat} (h : Numeral cs n) {c : Char}
    (hc : c ∈ cs) : (digit? c).isSome := by
  obtain ⟨ds, hds, -⟩ := h
  have hmem : digit? c ∈ ds.map some := hds ▸ List.mem_map_of_mem hc
  obtain ⟨d, -, hd⟩ := List.mem_map.mp hmem
  rw [← hd]
  rfl

/-! ## Writing -/

theorem ofDigits_concat (ds : List Nat) (d : Nat) :
    ofDigits (ds ++ [d]) = 10 * ofDigits ds + d := by
  simp [ofDigits]

theorem ofDigits_zeros (k : Nat) (ds : List Nat) :
    ofDigits (List.replicate k 0 ++ ds) = ofDigits ds := by
  induction k with
  | zero => rfl
  | succ k ih => simpa [List.replicate_succ, ofDigits] using ih

theorem ofDigits_lt {ds : List Nat} (h : ∀ d ∈ ds, d < 10) : ofDigits ds < 10 ^ ds.length := by
  have hfold : ∀ n, ds.foldl (fun n d => 10 * n + d) n < (n + 1) * 10 ^ ds.length := by
    induction ds with
    | nil =>
      intro n
      simp
    | cons d ds ih =>
      intro n
      have hd := h d (List.mem_cons_self ..)
      have hrest := ih (fun d' hd' => h d' (List.mem_cons_of_mem d hd')) (10 * n + d)
      have hstep : (10 * n + d + 1) * 10 ^ ds.length ≤ (n + 1) * 10 * 10 ^ ds.length :=
        Nat.mul_le_mul_right _ (by omega)
      rw [List.foldl_cons, List.length_cons, Nat.pow_succ, Nat.mul_comm (10 ^ ds.length),
        ← Nat.mul_assoc]
      exact Nat.lt_of_lt_of_le hrest hstep
  simpa [ofDigits] using hfold 0

theorem Numeral.lt {cs : List Char} {n : Nat} (h : Numeral cs n) : n < 10 ^ cs.length := by
  obtain ⟨ds, hds, rfl⟩ := h
  have hlength : cs.length = ds.length := by
    have := congrArg List.length hds
    rwa [List.length_map, List.length_map] at this
  rw [hlength]
  refine ofDigits_lt fun d hd => ?_
  have hmem : some d ∈ cs.map digit? := hds ▸ List.mem_map_of_mem hd
  obtain ⟨c, -, hc⟩ := List.mem_map.mp hmem
  exact digit?_lt_ten hc

theorem Numeral.lt_of_length_le {cs : List Char} {n k : Nat} (h : Numeral cs n)
    (hk : cs.length ≤ k) : n < Nat.pow 10 k :=
  Nat.lt_of_lt_of_le h.lt (Nat.pow_le_pow_right (by decide) hk)

theorem digit?_digitChar {d : Nat} (h : d < 10) : digit? (Nat.digitChar d) = some d := by
  have hall : ∀ d < 10, digit? (Nat.digitChar d) = some d := by decide
  exact hall d h

theorem numeral_toDigits (n : Nat) : Numeral (Nat.toDigits 10 n) n := by
  induction n using Nat.strongRecOn with
  | _ n ih =>
    rcases Nat.lt_or_ge n 10 with hn | hn
    · refine ⟨[n], ?_, by simp [ofDigits]⟩
      rw [Nat.toDigits_of_lt_base hn]
      simp [digit?_digitChar hn]
    · obtain ⟨ds, hds, hv⟩ := ih (n / 10) (by omega)
      refine ⟨ds ++ [n % 10], ?_, ?_⟩
      · rw [Nat.toDigits_of_base_le (by decide) hn, List.map_append, hds]
        simp [digit?_digitChar (Nat.mod_lt n (by decide))]
      · rw [ofDigits_concat, hv]
        omega

/-- A number written with enough places has just that many digits. -/
theorem numeral_zeroPadded {width n : Nat} (hw : 0 < width) (h : n < 10 ^ width) :
    Numeral (zeroPadded width n).toList n ∧ (zeroPadded width n).toList.length = width := by
  have hlen : (Nat.toDigits 10 n).length ≤ width :=
    (Nat.length_toDigits_le_iff (by decide) hw).mpr h
  obtain ⟨ds, hds, hv⟩ := numeral_toDigits n
  have hzero : digit? '0' = some 0 := by decide
  constructor
  · refine ⟨List.replicate (width - (Nat.toDigits 10 n).length) 0 ++ ds, ?_, ?_⟩
    · simp [zeroPadded, hds, hzero]
    · rw [ofDigits_zeros, hv]
  · simp only [zeroPadded, String.toList_ofList, List.length_append, List.length_replicate]
    omega

/-! ## Numbers of too many digits -/

/-- More digits stand one after another than a number may have. -/
def LongNumber (cs : List Char) : Prop :=
  ∃ run, run <:+: cs ∧ (∀ c ∈ run, (digit? c).isSome) ∧ maxDigits < run.length

theorem LongNumber.mono {cs ds : List Char} (h : LongNumber cs) (hi : cs <:+: ds) :
    LongNumber ds := by
  obtain ⟨run, hrun, hdigits, hlen⟩ := h
  exact ⟨run, hrun.trans hi, hdigits, hlen⟩

theorem LongNumber.length_lt {cs : List Char} (h : LongNumber cs) : maxDigits < cs.length := by
  obtain ⟨run, hrun, -, hlen⟩ := h
  exact Nat.lt_of_lt_of_le hlen hrun.length_le

/-- With `k` digits before the text, those at its front make too many. -/
def StartsLong (k : Nat) (cs : List Char) : Prop :=
  ∃ run, run <+: cs ∧ (∀ c ∈ run, (digit? c).isSome) ∧ maxDigits < k + run.length

theorem startsLong_nil {k : Nat} : StartsLong k [] ↔ maxDigits < k := by
  simp [StartsLong]

theorem startsLong_cons {k : Nat} {c : Char} {cs : List Char} :
    StartsLong k (c :: cs) ↔
      maxDigits < k ∨ (digit? c).isSome ∧ StartsLong (k + 1) cs := by
  constructor
  · rintro ⟨run, hpre, hdigits, hlen⟩
    rcases List.prefix_cons_iff.mp hpre with rfl | ⟨run, rfl, hrun⟩
    · exact .inl hlen
    · have hall := List.forall_mem_cons.mp hdigits
      rw [List.length_cons] at hlen
      exact .inr ⟨hall.1, run, hrun, hall.2, by omega⟩
  · rintro (h | ⟨hc, run, hrun, hdigits, hlen⟩)
    · exact ⟨[], List.nil_prefix, by simp, h⟩
    · refine ⟨c :: run, List.cons_prefix_cons.mpr ⟨rfl, hrun⟩,
        List.forall_mem_cons.mpr ⟨hc, hdigits⟩, ?_⟩
      rw [List.length_cons]
      omega

theorem StartsLong.mono {k m : Nat} {cs : List Char} (h : StartsLong k cs) (hkm : k ≤ m) :
    StartsLong m cs := by
  obtain ⟨run, hrun, hdigits, hlen⟩ := h
  exact ⟨run, hrun, hdigits, by omega⟩

theorem StartsLong.longNumber {cs : List Char} (h : StartsLong 0 cs) : LongNumber cs := by
  obtain ⟨run, hrun, hdigits, hlen⟩ := h
  exact ⟨run, hrun.isInfix, hdigits, by omega⟩

theorem longNumber_cons {c : Char} {cs : List Char} :
    LongNumber (c :: cs) ↔ StartsLong 0 (c :: cs) ∨ LongNumber cs := by
  simp only [LongNumber, StartsLong, List.infix_cons_iff, or_and_right, exists_or, Nat.zero_add]

theorem hasLongRun_iff (k : Nat) (cs : List Char) :
    hasLongRun k cs = true ↔ StartsLong k cs ∨ LongNumber cs := by
  induction cs generalizing k with
  | nil =>
    rw [hasLongRun, decide_eq_true_eq, startsLong_nil]
    exact ⟨.inl, fun h => h.elim id fun h => absurd h.length_lt (Nat.not_lt_zero _)⟩
  | cons c cs ih =>
    rw [hasLongRun, longNumber_cons, startsLong_cons, startsLong_cons]
    split
    · rename_i hc
      rw [ih]
      simp only [hc, true_and]
      constructor
      · rintro (h | h)
        · exact .inl (.inr h)
        · exact .inr (.inr h)
      · rintro ((h | h) | (h | h) | h)
        · exact .inl ⟨[], List.nil_prefix, by simp, by simp only [List.length_nil]; omega⟩
        · exact .inl h
        · exact absurd h (Nat.not_lt_zero _)
        · exact .inl (h.mono (by omega))
        · exact .inr h
    · rename_i hc
      rw [Bool.or_eq_true, decide_eq_true_eq, ih]
      simp only [hc, Bool.false_eq_true, false_and, or_false, Nat.not_lt_zero, false_or]
      constructor
      · rintro (h | h | h)
        · exact .inl h
        · exact .inr h.longNumber
        · exact .inr h
      · rintro (h | h)
        · exact .inl h
        · exact .inr (.inr h)

theorem hasLongNumber_iff (cs : List Char) : hasLongNumber cs = true ↔ LongNumber cs := by
  rw [hasLongNumber, hasLongRun_iff]
  exact ⟨fun h => h.elim StartsLong.longNumber id, .inr⟩

/-- No number goes on over a character that is no digit. -/
theorem hasLongRun_append_cons {c : Char} (hc : digit? c = none) (k : Nat) (cs ds : List Char) :
    hasLongRun k (cs ++ c :: ds) = (hasLongRun k cs || hasLongRun 0 ds) := by
  induction cs generalizing k with
  | nil => simp [hasLongRun, hc]
  | cons b cs ih =>
    simp only [List.cons_append, hasLongRun, ih]
    split
    · rfl
    · rw [Bool.or_assoc]

theorem longNumber_append_cons {c : Char} (hc : digit? c = none) {cs ds : List Char} :
    LongNumber (cs ++ c :: ds) ↔ LongNumber cs ∨ LongNumber ds := by
  simp only [← hasLongNumber_iff, hasLongNumber, hasLongRun_append_cons hc, Bool.or_eq_true]

theorem not_longNumber_nil : ¬ LongNumber [] := by
  intro h
  exact absurd h.length_lt (by decide)

theorem longNumber_append_of_no_digit {cs : List Char} (h : ∀ c ∈ cs, digit? c = none)
    (ds : List Char) : LongNumber (cs ++ ds) ↔ LongNumber ds := by
  induction cs with
  | nil => rfl
  | cons c cs ih =>
    have hc : LongNumber ([] ++ c :: (cs ++ ds)) ↔ LongNumber [] ∨ LongNumber (cs ++ ds) :=
      longNumber_append_cons (h c (List.mem_cons_self ..))
    have hcs := ih fun d hd => h d (List.mem_cons_of_mem c hd)
    simpa only [List.nil_append, List.cons_append, not_longNumber_nil, false_or, hcs] using hc

end DateSpan.Text
