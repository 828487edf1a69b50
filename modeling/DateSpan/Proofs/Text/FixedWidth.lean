import DateSpan.Text.Layout
import Mathlib.Algebra.Group.Nat.Defs

/-! Numbers of a fixed width. Filled up with zeros, numbers are ordered as texts as they are as numbers,
and of equal ones the texts that follow decide. -/

namespace DateSpan.Text

/-- The last digits of a number, as many as there are places. -/
def fixedDigits : Nat → Nat → List Char
  | 0, _ => []
  | width + 1, n => fixedDigits width (n / 10) ++ [Nat.digitChar (n % 10)]

theorem fixedDigits_zero (width : Nat) : fixedDigits width 0 = List.replicate width '0' := by
  induction width with
  | zero => rfl
  | succ width ih => exact (congrArg (· ++ ['0']) ih).trans List.replicate_succ'.symm

/-- In front of a number that has enough places stand zeros. -/
theorem fixedDigits_eq {width n : Nat} (hwidth : 0 < width) (hn : n < 10 ^ width) :
    fixedDigits width n =
      List.replicate (width - (Nat.toDigits 10 n).length) '0' ++ Nat.toDigits 10 n := by
  induction width generalizing n with
  | zero => exact absurd hwidth (Nat.lt_irrefl 0)
  | succ width ih =>
    rcases Nat.lt_or_ge n 10 with hsmall | hlarge
    · rw [fixedDigits, Nat.toDigits_of_lt_base hsmall, Nat.div_eq_of_lt hsmall,
        Nat.mod_eq_of_lt hsmall, fixedDigits_zero]
      rfl
    · have hplaces : 0 < width := by
        rcases Nat.eq_zero_or_pos width with rfl | hpos
        · omega
        · exact hpos
      have hfront : n / 10 < 10 ^ width := by
        rw [Nat.pow_succ] at hn
        omega
      rw [fixedDigits, ih hplaces hfront, Nat.toDigits_of_base_le (by decide) hlarge,
        List.length_append, List.length_singleton, Nat.add_sub_add_right, List.append_assoc]

theorem zeroPadded_eq {width n : Nat} (hwidth : 0 < width) (hn : n < 10 ^ width) :
    (zeroPadded width n).toList = fixedDigits width n := by
  rw [fixedDigits_eq hwidth hn, zeroPadded, String.toList_ofList]

/-! ## Order -/

theorem digitChar_lt_iff {m n : Nat} (hm : m < 10) (hn : n < 10) :
    Nat.digitChar m < Nat.digitChar n ↔ m < n := by
  have hall : ∀ m < 10, ∀ n < 10, (Nat.digitChar m < Nat.digitChar n ↔ m < n) := by decide
  exact hall m hm n hn

theorem digitChar_inj {m n : Nat} (hm : m < 10) (hn : n < 10) :
    Nat.digitChar m = Nat.digitChar n ↔ m = n := by
  have hall : ∀ m < 10, ∀ n < 10, (Nat.digitChar m = Nat.digitChar n ↔ m = n) := by decide
  exact hall m hm n hn

theorem fixedDigits_append_lt_iff {width m n : Nat} (hm : m < 10 ^ width) (hn : n < 10 ^ width)
    {us vs : List Char} :
    fixedDigits width m ++ us < fixedDigits width n ++ vs ↔ m < n ∨ m = n ∧ us < vs := by
  induction width generalizing m n us vs with
  | zero =>
    have hmn : m = 0 ∧ n = 0 := by
      rw [Nat.pow_zero] at hm hn
      omega
    simp [fixedDigits, hmn]
  | succ width ih =>
    rw [Nat.pow_succ] at hm hn
    have hlast : m % 10 < 10 ∧ n % 10 < 10 := ⟨Nat.mod_lt _ (by decide), Nat.mod_lt _ (by decide)⟩
    rw [fixedDigits, fixedDigits, List.append_assoc, List.append_assoc, ih (by omega) (by omega),
      List.singleton_append, List.singleton_append, List.cons_lt_cons_iff,
      digitChar_lt_iff hlast.1 hlast.2, digitChar_inj hlast.1 hlast.2]
    by_cases hrest : us < vs
    · simp only [hrest, and_true]
      omega
    · simp only [hrest, and_false, or_false]
      omega

end DateSpan.Text
