import DateSpan.Proofs.Expr.Alternatives

/-! Long numbers in texts. They stand in durations only, no word joins digits with the next, and
whatever follows a word with a long number, the reader gets past it. -/

namespace DateSpan.Expr

open Text

theorem BriefText.length_le {b : Brief} {cs : List Char} (h : BriefText b cs) :
    cs.length ≤ 20 := by
  cases h with
  | year hy => exact hy.2 ▸ by decide
  | month hy hmo => simp [hy.2, hmo.2]
  | day hy hmo hd => simp [hy.2, hmo.2, hd.2]
  | hour hy hmo hd hh => simp [hy.2, hmo.2, hd.2, hh.2]
  | minute hy hmo hd hh hmi => simp [hy.2, hmo.2, hd.2, hh.2, hmi.2]
  | second hy hmo hd hh hmi hs hz =>
    rcases hz with rfl | rfl <;> simp [hy.2, hmo.2, hd.2, hh.2, hmi.2, hs.2]
  | compact hy hmo hd hh hmi hs => simp [hy.2, hmo.2, hd.2, hh.2, hmi.2, hs.2]

theorem BriefText.not_longNumber {b : Brief} {cs : List Char} (h : BriefText b cs) :
    ¬ LongNumber cs := by
  intro hl
  have hlen := hl.length_lt
  have hmax : maxDigits = 4300 := rfl
  have := h.length_le
  omega

/-- Signs have no digits. -/
theorem Token.Spelled.cases_digit {t : Token} {l : List Char} (h : t.Spelled l) :
    (∃ b, t = .brief b ∧ BriefText b l) ∨ (∃ a, t = .duration a ∧ DurationText a l) ∨
      ∀ c ∈ l, digit? c = none := by
  cases h with
  | brief h => exact .inl ⟨_, rfl, h⟩
  | duration h => exact .inr (.inl ⟨_, rfl, h⟩)
  | _ => exact .inr (.inr (by simp [digit?_eq_none]))

theorem Token.Spelled.duration_of_long {t : Token} {l : List Char} (h : t.Spelled l)
    (hl : LongNumber l) : ∃ a, t = .duration a ∧ DurationText a l := by
  rcases h.cases_digit with ⟨b, -, hb⟩ | hdur | hsign
  · exact absurd hl hb.not_longNumber
  · exact hdur
  · rw [← List.append_nil l, longNumber_append_of_no_digit hsign] at hl
    exact absurd hl not_longNumber_nil

/-- Where a word ends, no digits go on from it into the words after it. -/
theorem longNumber_word {t : Token} {l used rest : List Char} (hs : t.Spelled l)
    (hend : t.EndsAt (used ++ rest)) :
    LongNumber (l ++ used) ↔ LongNumber l ∨ LongNumber used := by
  have hjoin : noDigit (used ++ rest) →
      (LongNumber (l ++ used) ↔ LongNumber l ∨ LongNumber used) := by
    intro hdigit
    cases used with
    | nil => simp [not_longNumber_nil]
    | cons c used =>
      have hc : digit? c = none := by simpa [noDigit] using hdigit
      have hcons : LongNumber ([c] ++ used) ↔ LongNumber used :=
        longNumber_append_of_no_digit (by simpa using hc) used
      rw [longNumber_append_cons hc, ← hcons, List.singleton_append]
  rcases hs.cases_digit with ⟨b, rfl, -⟩ | ⟨a, rfl, -⟩ | hsign
  · exact hjoin (BriefEnds.noDigit hend)
  · exact hjoin (DurationEnds.noDigit hend)
  · have hl : LongNumber (l ++ []) ↔ LongNumber [] := longNumber_append_of_no_digit hsign []
    rw [List.append_nil] at hl
    rw [longNumber_append_of_no_digit hsign, hl]
    simp [not_longNumber_nil]

/-- A scanned text has a long number just when a word has one. -/
theorem Scanned.longNumber {ts : List Token} {ls : List (List Char)} {cs rest : List Char}
    (h : Scanned ts ls cs rest) :
    ∃ used, cs = used ++ rest ∧ (LongNumber used ↔ ∃ l ∈ ls, LongNumber l) := by
  induction h with
  | nil => exact ⟨[], rfl, by simp [not_longNumber_nil]⟩
  | @cons blanks t l ts ls tail rest hb hs hend _ ih =>
    obtain ⟨used, rfl, hused⟩ := ih
    have hblank : ∀ c ∈ blanks, digit? c = none := fun c hc => (parts_of_isBlank (hb c hc)).noDigit
    refine ⟨blanks ++ (l ++ used), by simp, ?_⟩
    rw [longNumber_append_of_no_digit hblank, longNumber_word hs hend, hused]
    simp

/-! ## Reach -/

theorem Words.spelled {ts : List Token} {ls : List (List Char)} {cs rest : List Char}
    (h : Words ts ls cs rest) {l : List Char} (hl : l ∈ ls) : ∃ t ∈ ts, t.Spelled l := by
  induction h with
  | nil => cases hl
  | cons _ hs _ ih =>
    rcases List.mem_cons.mp hl with rfl | hl
    · exact ⟨_, List.mem_cons_self .., hs⟩
    · obtain ⟨t, ht, hs⟩ := ih hl
      exact ⟨t, List.mem_cons_of_mem _ ht, hs⟩

theorem Words.place {ts : List Token} {ls : List (List Char)} {cs rest : List Char}
    (h : Words ts ls cs rest) {l : List Char} (hl : l ∈ ls) :
    ∃ pre post, cs = pre ++ (l ++ post) ∧ rest.length ≤ post.length := by
  induction h with
  | nil => cases hl
  | @cons blanks t l' ts ls tail rest _ _ hw ih =>
    rcases List.mem_cons.mp hl with rfl | hl
    · refine ⟨blanks, tail, rfl, ?_⟩
      clear ih hl
      induction hw with
      | nil => exact Nat.le_refl _
      | cons _ _ _ ih =>
        simp only [List.length_append]
        omega
    · obtain ⟨pre, post, rfl, hlen⟩ := ih hl
      exact ⟨blanks ++ (l' ++ pre), post, by simp, hlen⟩

/-- Past a written duration a duration is read, that one or a longer one. -/
theorem Words.read_duration {a : Amounts} {l cs rest : List Char}
    (h : Words [.duration a] [l] cs rest) :
    ∃ a' r pre, token readToken cs = some (.duration a', r) ∧ cs = pre ++ (l ++ rest) ∧
      r.length ≤ rest.length := by
  cases h with
  | @cons blanks _ _ _ _ _ _ hb hs h =>
    cases h
    cases hs with
    | duration hdur =>
      obtain ⟨a', r, hread, hlen⟩ := amounts_reaches hdur rest
      refine ⟨a', r, blanks, ?_, rfl, hlen⟩
      rw [token, (Token.Spelled.duration hdur).skipBlank hb]
      cases hdur
      rw [List.cons_append] at hread ⊢
      rw [readToken, tagged, hread]
      rfl

/-- The brief and the side of a relative value are read whatever follows them, and only its duration
may have a long number. -/
theorem Words.read_relative {b : Brief} {side : Side} {a : Amounts} {ls : List (List Char)}
    {cs rest : List Char} (h : Words [.brief b, .side side, .duration a] ls cs rest) :
    ∃ c₁ c₂ l pre, token readToken cs = some (.brief b, c₁) ∧
      token readToken c₁ = some (.side side, c₂) ∧ Words [.duration a] [l] c₂ rest ∧
      cs = pre ++ c₂ ∧ ∀ m ∈ ls, LongNumber m → m = l := by
  cases h with
  | @cons blanks₁ _ l₁ _ _ c₁ _ hb₁ hs₁ h =>
    have hend : BriefEnds c₁ := by
      cases side with
      | after => exact h.briefEnds trivial
      | before => exact h.briefEnds_minus
    cases h with
    | @cons blanks₂ _ l₂ _ _ c₂ _ hb₂ hs₂ h =>
      cases h with
      | @cons blanks₃ _ l _ _ _ _ hb hs h =>
        cases h
        refine ⟨blanks₂ ++ (l₂ ++ (blanks₃ ++ (l ++ rest))), blanks₃ ++ (l ++ rest), l,
          blanks₁ ++ (l₁ ++ (blanks₂ ++ l₂)), ?_, ?_, .cons hb hs .nil, by simp, ?_⟩
        · rw [token, hs₁.skipBlank hb₁, readToken_append hs₁ hend]
        · rw [token, hs₂.skipBlank hb₂, readToken_append hs₂ trivial]
        · intro m hm hlong
          rcases List.mem_cons.mp hm with rfl | hm
          · obtain ⟨_, heq, _⟩ := hs₁.duration_of_long hlong
            cases heq
          rcases List.mem_cons.mp hm with rfl | hm
          · obtain ⟨_, heq, _⟩ := hs₂.duration_of_long hlong
            cases heq
          · exact List.mem_singleton.mp hm

theorem Value.Form.reaches {v : Value} {ts : List Token} (hf : v.Form ts) {ls : List (List Char)}
    {cs rest : List Char} (h : Words ts ls cs rest) {l : List Char} (hl : l ∈ ls)
    (hlong : LongNumber l) :
    ∃ v' r pre post, value cs = some (v', r) ∧ cs = pre ++ (l ++ post) ∧
      r.length ≤ post.length := by
  obtain ⟨t, ht, hs⟩ := h.spelled hl
  obtain ⟨a, rfl, -⟩ := hs.duration_of_long hlong
  cases hf with
  | duration =>
    obtain ⟨l', rfl⟩ : ∃ l', ls = [l'] := by
      cases h with
      | cons _ _ h =>
        cases h
        exact ⟨_, rfl⟩
    obtain rfl := List.mem_singleton.mp hl
    obtain ⟨a', r, pre, hread, hcs, hlen⟩ := h.read_duration
    exact ⟨_, r, pre, rest, value_of_duration hread, hcs, hlen⟩
  | relative =>
    obtain ⟨c₁, c₂, l', pre, h₁, h₂, hw, rfl, honly⟩ := h.read_relative
    obtain rfl := honly l hl hlong
    obtain ⟨a', r, pre', hread, rfl, hlen⟩ := hw.read_duration
    exact ⟨_, r, pre ++ pre', rest, value_of_relative h₁ h₂ hread, by simp, hlen⟩
  | _ => simp at ht

/-- Whatever follows values with a long number, the reader gets past the number. -/
theorem Values.Form.reaches {vs : List Value} {ts : List Token} (hf : Values.Form vs ts)
    {ls : List (List Char)} {cs rest : List Char} (h : Words ts ls cs rest) {l : List Char}
    (hl : l ∈ ls) (hlong : LongNumber l) :
    ∃ v r pre post, value cs = some (v, r) ∧ cs = pre ++ (l ++ post) ∧
      (alternatives r).2.length ≤ post.length := by
  induction hf generalizing ls cs with
  | single hv =>
    obtain ⟨v, r, pre, post, hvalue, hcs, hlen⟩ := hv.reaches h hl hlong
    exact ⟨v, r, pre, post, hvalue, hcs, Nat.le_trans (length_alternatives_le r) hlen⟩
  | @cons v vs ts us hv hvs ih =>
    obtain ⟨ls₁, ls₂, mid, rfl, h₁, h₂⟩ := h.split
    have hvalue : value cs = some (v, mid) := (hv.scanned h₁ h₂.valueEnds).value hv h₂.valueEnds
    rcases List.mem_append.mp hl with hl | hl
    · obtain ⟨pre, post, hcs, hlen⟩ := h₁.place hl
      exact ⟨v, mid, pre, post, hvalue, hcs, Nat.le_trans (length_alternatives_le mid) hlen⟩
    · cases h₂ with
      | @cons blanks _ l' _ ls₃ tail _ hb hs h₃ =>
        have hl₃ : l ∈ ls₃ := by
          rcases List.mem_cons.mp hl with rfl | hl
          · obtain ⟨_, heq, _⟩ := hs.duration_of_long hlong
            cases heq
          · exact hl
        obtain ⟨w, r, pre, post, hmore, rfl, hlen⟩ := ih h₃ hl₃
        obtain ⟨used, rfl, -⟩ := h₁.front
        have hsign : token readToken (blanks ++ (l' ++ (pre ++ (l ++ post)))) =
            some (.orSign, pre ++ (l ++ post)) := by
          rw [token, hs.skipBlank hb, readToken_append hs (hvs.noSign h₃)]
        refine ⟨v, _, used ++ (blanks ++ (l' ++ pre)), post, hvalue, by simp, ?_⟩
        rw [alternatives_of_some ((alternative_of_orSign hsign).trans hmore)]
        exact hlen

end DateSpan.Expr
