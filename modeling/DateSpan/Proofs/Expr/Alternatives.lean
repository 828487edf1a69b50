import DateSpan.Proofs.Expr.Values

/-! Lists of values. The words of several values in order are read as those values, and everything
that is read is such a row of words. -/

namespace DateSpan.Expr

open Text

/-! ## The list reader -/

theorem alternatives_of_none {cs : List Char} (h : alternative cs = none) :
    alternatives cs = ([], cs) := by
  rw [alternatives]
  split
  · rfl
  · rename_i hc
    rw [h] at hc
    cases hc

theorem alternatives_of_some {cs rest : List Char} {v : Value}
    (h : alternative cs = some (v, rest)) :
    alternatives cs = (v :: (alternatives rest).1, (alternatives rest).2) := by
  rw [alternatives]
  split
  · rename_i hc
    rw [h] at hc
    cases hc
  · rename_i v' rest' hc
    rw [h] at hc
    cases hc
    rfl

theorem length_alternatives_le (cs : List Char) : (alternatives cs).2.length ≤ cs.length := by
  fun_induction alternatives cs with
  | case1 => exact Nat.le_refl _
  | case2 cs v rest h hlt vs tail heq ih =>
    rw [heq] at ih
    exact Nat.le_trans ih (Nat.le_of_lt hlt)

theorem alternative_of_orSign {cs tail : List Char}
    (h : token readToken cs = some (.orSign, tail)) : alternative cs = value tail := by
  rw [alternative, orSign_eq_only, only_of_read _ h]
  rfl

theorem alternative_of_blank {cs : List Char} (h : Blank cs) : alternative cs = none := by
  rw [alternative, token, skipBlank_eq_nil.mpr h]
  rfl

/-! ## Forms -/

theorem Value.Form.cons {v : Value} {ts : List Token} (h : v.Form ts) :
    ∃ t us, ts = t :: us ∧ ¬ t.Opens '|' := by
  cases h with
  | between | betweenComma | lower | upper | duration => exact ⟨_, _, rfl, by simp [Token.Opens]⟩
  | span | relative | brief => exact ⟨_, _, rfl, by simp [Token.Opens, digit?_eq_none]⟩

theorem Values.Form.cons_token {vs : List Value} {ts : List Token} (h : Values.Form vs ts) :
    ∃ t us, ts = t :: us ∧ ¬ t.Opens '|' := by
  cases h with
  | single hv => exact hv.cons
  | cons hv =>
    obtain ⟨t, us, rfl, ht⟩ := hv.cons
    exact ⟨t, _, rfl, ht⟩

/-- A further value goes to the end. -/
theorem Values.Form.concat {vs : List Value} {ts : List Token} (h : Values.Form vs ts) {v : Value}
    {us : List Token} (hv : v.Form us) : Values.Form (vs ++ [v]) (ts ++ .orSign :: us) := by
  induction h with
  | single hw => exact .cons hw (.single hv)
  | cons hw _ ih =>
    rw [List.append_assoc]
    exact .cons hw ih

theorem Words.valueEnds {ts : List Token} {ls : List (List Char)} {cs rest : List Char}
    (h : Words (.orSign :: ts) ls cs rest) : ValueEnds cs := by
  cases h with
  | cons hb hs =>
    intro c hc
    obtain ⟨d, l', rfl, hd⟩ := hs.opens
    rw [hs.skipBlank hb] at hc
    cases hc
    exact hd

theorem Values.Form.noSign {vs : List Value} {ts : List Token} (hf : Values.Form vs ts)
    {ls : List (List Char)} {cs rest : List Char} (h : Words ts ls cs rest) :
    cs.head? ≠ some '|' := by
  obtain ⟨t, us, rfl, ht⟩ := hf.cons_token
  cases h with
  | cons hb hs => exact head?_word_ne hb hs (by decide) ht _

theorem Values.Form.scanned {vs : List Value} {ts : List Token} (hf : Values.Form vs ts)
    {ls : List (List Char)} {cs rest : List Char} (h : Words ts ls cs rest) (hr : ValueEnds rest) :
    Scanned ts ls cs rest := by
  induction hf generalizing ls cs with
  | single hv => exact hv.scanned h hr
  | @cons v vs ts us hv hvs ih =>
    obtain ⟨ls₁, ls₂, mid, rfl, h₁, h₂⟩ := h.split
    have hsign : Scanned (.orSign :: us) ls₂ mid rest := by
      apply h₂.scan
      · exact fun h => hvs.noSign h
      · exact fun h => ih h
    exact (hv.scanned h₁ h₂.valueEnds).append hsign

/-! ## Completeness -/

/-- The rows after the words of a value and a sign. -/
theorem Scanned.split {ts us : List Token} {ls : List (List Char)} {cs rest : List Char}
    (h : Scanned (ts ++ us) ls cs rest) :
    ∃ ls₁ ls₂ mid, ls = ls₁ ++ ls₂ ∧ Scanned ts ls₁ cs mid ∧ Scanned us ls₂ mid rest := by
  induction ts generalizing ls cs with
  | nil => exact ⟨[], ls, cs, rfl, .nil, h⟩
  | cons t ts ih =>
    cases h with
    | cons hb hs hend htail =>
      obtain ⟨ls₁, ls₂, mid, rfl, h₁, h₂⟩ := ih htail
      exact ⟨_ :: ls₁, ls₂, mid, rfl, .cons hb hs hend h₁, h₂⟩

theorem Scanned.words {ts : List Token} {ls : List (List Char)} {cs rest : List Char}
    (h : Scanned ts ls cs rest) : Words ts ls cs rest := by
  induction h with
  | nil => exact .nil
  | cons hb hs _ _ ih => exact .cons hb hs ih

/-- Words in the form of values are read as the values. -/
theorem Scanned.values {vs : List Value} {ts : List Token} (hf : Values.Form vs ts)
    {ls : List (List Char)} {cs rest : List Char} (h : Scanned ts ls cs rest) (hr : Blank rest) :
    ∃ v ws mid, vs = v :: ws ∧ Expr.value cs = some (v, mid) ∧ alternatives mid = (ws, rest) := by
  induction hf generalizing ls cs with
  | @single v ts hv =>
    have hend : ValueEnds rest := by
      intro c hc
      rw [skipBlank_eq_nil.mpr hr] at hc
      cases hc
    exact ⟨v, [], rest, rfl, h.value hv hend, alternatives_of_none (alternative_of_blank hr)⟩
  | @cons v vs ts us hv _ ih =>
    obtain ⟨ls₁, ls₂, mid, rfl, h₁, h₂⟩ := h.split
    obtain ⟨tail, ls₃, hsign, h₃⟩ := h₂.next
    obtain ⟨w, ws, mid', rfl, hvalue, hmore⟩ := ih h₃
    refine ⟨v, w :: ws, mid, rfl, h₁.value hv h₂.words.valueEnds, ?_⟩
    rw [alternatives_of_some ((alternative_of_orSign hsign).trans hvalue), hmore]

/-! ## Soundness -/

theorem alternative_sound {cs rest : List Char} {v : Value} (h : alternative cs = some (v, rest)) :
    ∃ ts ls tail, v.Form ts ∧ Words (.orSign :: ts) ls cs tail ∧ Leaves tail rest := by
  simp only [alternative, bind, Option.bind_eq_some_iff] at h
  obtain ⟨⟨_, c₁⟩, h₁, h₂⟩ := h
  obtain ⟨l, hl⟩ := orSign_isSound.words h₁
  obtain ⟨ts, ls, tail, hf, hw, hleave⟩ := value_sound _ _ _ h₂
  exact ⟨ts, _, tail, hf, hl.append hw, hleave⟩

/-- No alternative stands where a `T` was lost. -/
theorem Leaves.alternative {tail rest : List Char} (h : Leaves tail rest) {v : Value}
    {rest' : List Char} (ha : alternative rest = some (v, rest')) : tail = rest := by
  rcases h with rfl | ⟨-, hdigit⟩
  · rfl
  · obtain ⟨ts, ls, tail', -, hw, -⟩ := alternative_sound ha
    have hend := hw.valueEnds
    cases rest with
    | nil => cases hdigit
    | cons c rest =>
      have hc : (digit? c).isSome := by
        simpa [noDigit, Option.isSome_iff_ne_none] using hdigit
      obtain rfl : c = '|' := hend c (by rw [skipBlank_cons (not_isBlank_of_digit hc)]; rfl)
      exact absurd hc (by decide)

/-- What is read after values goes on with the row of their words. -/
theorem alternatives_sound {vs : List Value} {ts : List Token} {ls : List (List Char)}
    {text tail cs : List Char} (hf : Values.Form vs ts) (hw : Words ts ls text tail)
    (hleave : Leaves tail cs) :
    ∃ us ms end', Values.Form (vs ++ (alternatives cs).1) us ∧ Words us ms text end' ∧
      Leaves end' (alternatives cs).2 := by
  fun_induction alternatives cs generalizing vs ts ls tail with
  | case1 => exact ⟨ts, ls, tail, by rwa [List.append_nil], hw, hleave⟩
  | case2 cs v rest h hlt ws tail' heq ih =>
    obtain rfl := hleave.alternative h
    obtain ⟨us, ms, mid, hv, hv', hleave'⟩ := alternative_sound h
    obtain ⟨us', ms', end', hform, hwords, hend⟩ := ih (hf.concat hv) (hw.append hv') hleave'
    rw [heq] at hform hend
    exact ⟨us', ms', end', by simpa using hform, hwords, hend⟩

end DateSpan.Expr
