import DateSpan.Text.Layout
import DateSpan.Proofs.Expr.Scanning

/-! Tabs in texts. Expanded or not, the same words stand in a text, for a tab is blank and no word
has one. -/

namespace DateSpan.Expr

open Text

/-! ## Words have no blanks -/

def Solid (cs : List Char) : Prop :=
  ∀ c ∈ cs, isBlank c = false

theorem solid_nil : Solid [] := nofun

theorem Solid.cons {c : Char} {cs : List Char} (hc : isBlank c = false) (h : Solid cs) :
    Solid (c :: cs) := by
  intro d hd
  rcases List.mem_cons.mp hd with rfl | hd
  · exact hc
  · exact h d hd

theorem Solid.append {cs ds : List Char} (h : Solid cs) (h' : Solid ds) : Solid (cs ++ ds) := by
  intro c hc
  rcases List.mem_append.mp hc with hc | hc
  · exact h c hc
  · exact h' c hc

theorem Numeral.solid {n : Nat} {cs : List Char} (h : Numeral cs n) : Solid cs :=
  fun _ hc => not_isBlank_of_digit (h.isSome_digit? hc)

theorem Places.solid {w n : Nat} {cs : List Char} (h : Places w n cs) : Solid cs :=
  Numeral.solid h.1

theorem BriefText.solid {b : Brief} {cs : List Char} (h : BriefText b cs) : Solid cs := by
  cases h with
  | year hy => exact hy.solid
  | month hy hmo => exact hy.solid.append (.cons (by decide) hmo.solid)
  | day hy hmo hd =>
    exact hy.solid.append (.cons (by decide) (hmo.solid.append (.cons (by decide) hd.solid)))
  | hour hy hmo hd hh =>
    exact hy.solid.append (.cons (by decide) (hmo.solid.append (.cons (by decide)
      (hd.solid.append (.cons (by decide) hh.solid)))))
  | minute hy hmo hd hh hmi =>
    exact hy.solid.append (.cons (by decide) (hmo.solid.append (.cons (by decide)
      (hd.solid.append (.cons (by decide) (hh.solid.append (.cons (by decide) hmi.solid)))))))
  | @second _ _ _ _ _ _ _ _ _ _ _ _ zone hy hmo hd hh hmi hs hz =>
    have hzone : Solid zone := by
      rcases hz with rfl | rfl
      · exact solid_nil
      · exact .cons (by decide) solid_nil
    exact hy.solid.append (.cons (by decide) (hmo.solid.append (.cons (by decide)
      (hd.solid.append (.cons (by decide) (hh.solid.append (.cons (by decide)
        (hmi.solid.append (.cons (by decide) (hs.solid.append hzone))))))))))
  | compact hy hmo hd hh hmi hs =>
    exact hy.solid.append (hmo.solid.append (hd.solid.append (hh.solid.append
      (hmi.solid.append hs.solid))))

theorem CountText.solid {mark : Char} (hm : isBlank mark = false) {k : Option Nat} {cs : List Char}
    (h : CountText mark k cs) : Solid cs := by
  cases h with
  | absent => exact solid_nil
  | written _ hnum => exact (Numeral.solid hnum).append (.cons hm solid_nil)

theorem TimeText.solid {h m s : Option Nat} {cs : List Char} (ht : TimeText h m s cs) :
    Solid cs := by
  cases ht with
  | absent => exact solid_nil
  | written hh hm hs =>
    exact .cons (by decide) ((hh.solid (by decide)).append
      ((hm.solid (by decide)).append (hs.solid (by decide))))

theorem Token.Spelled.solid {t : Token} {l : List Char} (h : t.Spelled l) : Solid l := by
  cases h with
  | brief h => exact h.solid
  | duration h =>
    cases h with
    | written hy hmo hd ht =>
      exact .cons (by decide) ((hy.solid (by decide)).append ((hmo.solid (by decide)).append
        ((hd.solid (by decide)).append ht.solid)))
  | _ => simp [Solid, isBlank]

/-! ## Expansion -/

theorem expandFrom_solid {l : List Char} (h : Solid l) (column : Nat) (cs : List Char) :
    expandFrom column (l ++ cs) = l ++ expandFrom (column + l.length) cs := by
  induction l generalizing column with
  | nil => rfl
  | cons c l ih =>
    have hc := h c (List.mem_cons_self ..)
    have hl : Solid l := fun d hd => h d (List.mem_cons_of_mem c hd)
    have htab : c ≠ '\t' := by
      rintro rfl
      cases hc
    have hline : ¬ (c = '\n' ∨ c = '\r') := by
      rintro (rfl | rfl) <;> cases hc
    rw [List.cons_append, expandFrom, if_neg htab, if_neg hline, ih hl, List.length_cons,
      Nat.add_assoc, Nat.add_comm 1, List.cons_append]

theorem blank_gap (gap : Nat) : Blank (List.replicate gap ' ') := by
  intro c hc
  rw [List.eq_of_mem_replicate hc]
  rfl

theorem skipBlank_blank {c : Char} (h : isBlank c) (cs : List Char) :
    skipBlank (c :: cs) = skipBlank cs := by
  simp [skipBlank, h]

/-- Blanks at the front stay blanks at the front. -/
theorem skipBlank_expandFrom (column : Nat) (cs : List Char) :
    ∃ column', skipBlank (expandFrom column cs) = expandFrom column' (skipBlank cs) := by
  induction cs generalizing column with
  | nil => exact ⟨column, rfl⟩
  | cons c cs ih =>
    by_cases hc : isBlank c
    · rw [skipBlank_blank hc, expandFrom]
      split
      · rw [skipBlank_append (blank_gap _)]
        exact ih _
      · split
        · rw [skipBlank_blank hc]
          exact ih 0
        · rw [skipBlank_blank hc]
          exact ih _
    · have hsolid : Solid [c] := .cons (by simpa using hc) solid_nil
      refine ⟨column, ?_⟩
      rw [skipBlank_cons (by simpa using hc), ← List.singleton_append, expandFrom_solid hsolid,
        List.singleton_append, skipBlank_cons (by simpa using hc)]

theorem gap_eq_succ (column : Nat) : ∃ n, tabWidth - column % tabWidth = n + 1 :=
  Nat.exists_eq_succ_of_ne_zero (Nat.sub_pos_of_lt (Nat.mod_lt _ (by decide))).ne'

theorem expandFrom_eq_nil {column : Nat} {cs : List Char} :
    expandFrom column cs = [] ↔ cs = [] := by
  cases cs with
  | nil => exact ⟨fun _ => rfl, fun _ => rfl⟩
  | cons c cs =>
    refine ⟨fun h => ?_, nofun⟩
    rw [expandFrom] at h
    split at h
    · obtain ⟨n, hn⟩ := gap_eq_succ column
      simp only [hn, List.replicate_succ, List.cons_append] at h
      cases h
    · split at h <;> cases h

theorem blank_expandFrom {column : Nat} {cs : List Char} :
    Blank (expandFrom column cs) ↔ Blank cs := by
  obtain ⟨column', h⟩ := skipBlank_expandFrom column cs
  rw [← skipBlank_eq_nil, ← skipBlank_eq_nil, h, expandFrom_eq_nil]

/-- An expanded text that starts with a word comes from one that does. -/
theorem solid_of_expandFrom {l : List Char} (hl : Solid l) {column : Nat} {cs tail : List Char}
    (h : expandFrom column cs = l ++ tail) :
    ∃ column' tail', cs = l ++ tail' ∧ tail = expandFrom column' tail' := by
  induction l generalizing column cs with
  | nil => exact ⟨column, cs, rfl, h.symm⟩
  | cons c l ih =>
    have hc : isBlank c = false := hl c (List.mem_cons_self ..)
    have hl' : Solid l := fun d hd => hl d (List.mem_cons_of_mem c hd)
    cases cs with
    | nil => cases h
    | cons d cs =>
      rw [expandFrom] at h
      split at h
      · obtain ⟨n, hn⟩ := gap_eq_succ column
        simp only [hn, List.replicate_succ, List.cons_append] at h
        obtain ⟨rfl, -⟩ := List.cons.inj h
        cases hc
      · split at h
        · rename_i hline
          obtain ⟨rfl, -⟩ := List.cons.inj h
          rcases hline with rfl | rfl <;> cases hc
        · obtain ⟨rfl, htail⟩ := List.cons.inj h
          obtain ⟨column', tail', rfl, htail'⟩ := ih hl' htail
          exact ⟨column', tail', rfl, htail'⟩

theorem Words.expand {ts : List Token} {ls : List (List Char)} {cs rest : List Char}
    (h : Words ts ls cs rest) (column : Nat) :
    ∃ column', Words ts ls (expandFrom column cs) (expandFrom column' rest) := by
  induction h generalizing column with
  | nil => exact ⟨column, .nil⟩
  | @cons blanks t l ts ls tail rest hb hs _ ih =>
    obtain ⟨column₁, hskip⟩ := skipBlank_expandFrom column (blanks ++ (l ++ tail))
    rw [hs.skipBlank hb, expandFrom_solid hs.solid] at hskip
    obtain ⟨column₂, hw⟩ := ih (column₁ + l.length)
    exact ⟨column₂, (Words.of_skipBlank hs hskip).append hw⟩

theorem Words.of_expand {ts : List Token} {ls : List (List Char)} {column : Nat}
    {cs rest : List Char} (h : Words ts ls (expandFrom column cs) rest) :
    ∃ column' rest', Words ts ls cs rest' ∧ rest = expandFrom column' rest' := by
  generalize htext : expandFrom column cs = text at h
  induction h generalizing column cs with
  | nil => exact ⟨column, cs, .nil, htext.symm⟩
  | @cons blanks t l ts ls tail rest hb hs _ ih =>
    obtain ⟨column₁, hskip⟩ := skipBlank_expandFrom column cs
    rw [htext, hs.skipBlank hb] at hskip
    obtain ⟨column₂, tail', hcs, htail⟩ := solid_of_expandFrom hs.solid hskip.symm
    obtain ⟨column₃, rest', hw, hrest⟩ := ih htail.symm
    exact ⟨column₃, rest', (Words.of_skipBlank hs hcs).append hw, hrest⟩

end DateSpan.Expr
