import DateSpan.Proofs.Expr.Scanning

/-! Values. Words in the form of a value are read as the value, and what is read as a value has the
form of one, less a `T` that a duration may lose. -/

namespace DateSpan.Expr

open Text

/-! ## Completeness -/

theorem Words.scan {t : Token} {ts : List Token} {ls : List (List Char)} {cs rest : List Char}
    (h : Words (t :: ts) ls cs rest)
    (hend : ∀ {ls tail}, Words ts ls tail rest → t.EndsAt tail)
    (htail : ∀ {ls tail}, Words ts ls tail rest → Scanned ts ls tail rest) :
    Scanned (t :: ts) ls cs rest := by
  cases h with
  | cons hb hs h => exact .cons hb hs (hend h) (htail h)

theorem Words.scan_last {t : Token} {ls : List (List Char)} {cs rest : List Char}
    (h : Words [t] ls cs rest) (hend : t.EndsAt rest) : Scanned [t] ls cs rest := by
  apply h.scan
  · intro ls tail h
    cases h
    exact hend
  · intro ls tail h
    cases h
    exact .nil

theorem Words.noEquals {b : Brief} {ts : List Token} {ls : List (List Char)} {cs rest : List Char}
    (h : Words (.brief b :: ts) ls cs rest) : cs.head? ≠ some '=' := by
  cases h with
  | cons hb hs => exact head?_word_ne hb hs (by decide) (by simp [Token.Opens, digit?_eq_none]) _

theorem Words.briefEnds {t : Token} {ts : List Token} {ls : List (List Char)} {cs rest : List Char}
    (h : Words (t :: ts) ls cs rest) (ht : t.EndsBrief) : BriefEnds cs := by
  cases h with
  | cons hb hs => exact briefEnds_word ht hb hs _

theorem Words.briefEnds_minus {a : Amounts} {ts : List Token} {ls : List (List Char)}
    {cs rest : List Char} (h : Words (.side .before :: .duration a :: ts) ls cs rest) :
    BriefEnds cs := by
  cases h with
  | cons hb hs h =>
    cases hs
    cases h with
    | cons hb' hs' => exact Expr.briefEnds_minus hb hb' hs' _

theorem Value.Form.scanned {v : Value} {ts : List Token} (hf : v.Form ts) {ls : List (List Char)}
    {cs rest : List Char} (h : Words ts ls cs rest) (hr : ValueEnds rest) :
    Scanned ts ls cs rest := by
  have hbrief : BriefEnds rest := briefEnds_of_parts fun _ => hr.parts
  have hduration : DurationEnds rest := durationEnds_of_parts fun _ => hr.parts
  cases hf with
  | between =>
    exact h.scan Words.noEquals fun h => h.scan (·.briefEnds trivial) fun h =>
      h.scan Words.noEquals fun h => h.scan_last hbrief
  | betweenComma =>
    exact h.scan Words.noEquals fun h => h.scan (·.briefEnds trivial) fun h =>
      h.scan (fun _ => trivial) fun h => h.scan Words.noEquals fun h => h.scan_last hbrief
  | span =>
    exact h.scan (·.briefEnds trivial) fun h => h.scan (fun _ => trivial) fun h =>
      h.scan_last hbrief
  | lower => exact h.scan Words.noEquals fun h => h.scan_last hbrief
  | upper => exact h.scan Words.noEquals fun h => h.scan_last hbrief
  | @relative _ side =>
    cases side with
    | after =>
      exact h.scan (·.briefEnds trivial) fun h => h.scan (fun _ => trivial) fun h =>
        h.scan_last hduration
    | before =>
      exact h.scan Words.briefEnds_minus fun h => h.scan (fun _ => trivial) fun h =>
        h.scan_last hduration
  | brief => exact h.scan_last hbrief
  | duration => exact h.scan_last hduration

theorem only_of_read {α : Type} (kind : Token → Option α) {cs tail : List Char} {t : Token}
    (h : token readToken cs = some (t, tail)) :
    token (only kind) cs = (kind t).map (·, tail) := by
  rw [token] at h
  rw [token, only, h]
  rfl

theorem ValueEnds.read {rest : List Char} (h : ValueEnds rest) {t : Token} {tail : List Char}
    (hread : token readToken rest = some (t, tail)) : t = .orSign := by
  rw [token] at hread
  cases hskip : skipBlank rest with
  | nil =>
    rw [hskip] at hread
    cases hread
  | cons c cs =>
    obtain rfl : c = '|' := h c (by rw [hskip]; rfl)
    rw [hskip] at hread
    simp only [readToken, tagged, Option.map_eq_some_iff, Prod.mk.injEq] at hread
    obtain ⟨_, -, rfl, -⟩ := hread
    rfl

theorem ValueEnds.only_eq_none {α : Type} {kind : Token → Option α} (hk : kind .orSign = none)
    {rest : List Char} (h : ValueEnds rest) : token (only kind) rest = none := by
  cases hread : token readToken rest with
  | none =>
    rw [token] at hread
    rw [token, only, hread]
    rfl
  | some x => rw [only_of_read kind hread, h.read hread, hk]; rfl

theorem ValueEnds.dropComma_eq {rest : List Char} (h : ValueEnds rest) : dropComma rest = rest := by
  apply dropComma_of_other
  intro tail hread
  cases h.read hread

theorem value_of_duration {a : Amounts} {cs rest : List Char}
    (h : token readToken cs = some (.duration a, rest)) : value cs = some (.duration a, rest) := by
  simp only [value, bothBounds, lowerBound, upperBound, span, relative, briefValue, durationValue,
    bound, lowerOp_eq_only, upperOp_eq_only, brief_eq_only, amounts_eq_only]
  simp [only_of_read _ h, Token.lowerSign?, Token.upperSign?, Token.brief?, Token.duration?]

theorem value_of_relative {b : Brief} {side : Side} {a : Amounts} {cs c₁ c₂ rest : List Char}
    (h₁ : token readToken cs = some (.brief b, c₁))
    (h₂ : token readToken c₁ = some (.side side, c₂))
    (h₃ : token readToken c₂ = some (.duration a, rest)) :
    value cs = some (.relative b side a, rest) := by
  simp only [value, bothBounds, lowerBound, upperBound, span, relative, bound, lowerOp_eq_only,
    upperOp_eq_only, brief_eq_only, amounts_eq_only, dots_eq_only, sideSign_eq_only]
  simp [only_of_read _ h₁, only_of_read _ h₂, only_of_read _ h₃, Token.lowerSign?,
    Token.upperSign?, Token.brief?, Token.dots?, Token.side?, Token.duration?]

/-- Words in the form of a value are read as the value. -/
theorem Scanned.value {v : Value} {ts : List Token} (hf : v.Form ts) {ls : List (List Char)}
    {cs rest : List Char} (h : Scanned ts ls cs rest) (hr : ValueEnds rest) :
    value cs = some (v, rest) := by
  have hdots : token (only Token.dots?) rest = none := hr.only_eq_none rfl
  have hside : token (only Token.side?) rest = none := hr.only_eq_none rfl
  have hupper : token (only Token.upperSign?) rest = none := hr.only_eq_none rfl
  cases hf with
  | relative =>
    obtain ⟨c₁, _, h₁, h⟩ := h.next
    obtain ⟨c₂, _, h₂, h⟩ := h.next
    obtain ⟨c₃, _, h₃, h⟩ := h.next
    cases h
    exact value_of_relative h₁ h₂ h₃
  | duration =>
    obtain ⟨c₁, _, h₁, h⟩ := h.next
    cases h
    exact value_of_duration h₁
  | between =>
    obtain ⟨c₁, _, h₁, h⟩ := h.next
    obtain ⟨c₂, _, h₂, h⟩ := h.next
    obtain ⟨c₃, _, h₃, h⟩ := h.next
    obtain ⟨c₄, _, h₄, h⟩ := h.next
    cases h
    have hcomma : dropComma c₂ = c₂ := by
      apply dropComma_of_other
      intro tail hread
      cases h₃.symm.trans hread
    simp only [Expr.value, bothBounds, bound, lowerOp_eq_only, upperOp_eq_only, brief_eq_only]
    simp [only_of_read _ h₁, only_of_read _ h₂, hcomma, only_of_read _ h₃, only_of_read _ h₄,
      Token.lowerSign?, Token.upperSign?, Token.brief?]
  | betweenComma =>
    obtain ⟨c₁, _, h₁, h⟩ := h.next
    obtain ⟨c₂, _, h₂, h⟩ := h.next
    obtain ⟨c₃, _, h₃, h⟩ := h.next
    obtain ⟨c₄, _, h₄, h⟩ := h.next
    obtain ⟨c₅, _, h₅, h⟩ := h.next
    cases h
    simp only [Expr.value, bothBounds, bound, lowerOp_eq_only, upperOp_eq_only, brief_eq_only]
    simp [only_of_read _ h₁, only_of_read _ h₂, dropComma_of_comma h₃, only_of_read _ h₄,
      only_of_read _ h₅, Token.lowerSign?, Token.upperSign?, Token.brief?]
  | span =>
    obtain ⟨c₁, _, h₁, h⟩ := h.next
    obtain ⟨c₂, _, h₂, h⟩ := h.next
    obtain ⟨c₃, _, h₃, h⟩ := h.next
    cases h
    simp only [Expr.value, bothBounds, lowerBound, upperBound, span, bound, lowerOp_eq_only,
      upperOp_eq_only, brief_eq_only, dots_eq_only]
    simp [only_of_read _ h₁, only_of_read _ h₂, only_of_read _ h₃, Token.lowerSign?,
      Token.upperSign?, Token.brief?, Token.dots?]
  | lower =>
    obtain ⟨c₁, _, h₁, h⟩ := h.next
    obtain ⟨c₂, _, h₂, h⟩ := h.next
    cases h
    simp only [Expr.value, bothBounds, lowerBound, bound, lowerOp_eq_only, upperOp_eq_only,
      brief_eq_only]
    simp [only_of_read _ h₁, only_of_read _ h₂, hr.dropComma_eq, hupper, Token.lowerSign?,
      Token.brief?]
  | upper =>
    obtain ⟨c₁, _, h₁, h⟩ := h.next
    obtain ⟨c₂, _, h₂, h⟩ := h.next
    cases h
    simp only [Expr.value, bothBounds, lowerBound, upperBound, bound, lowerOp_eq_only,
      upperOp_eq_only, brief_eq_only]
    simp [only_of_read _ h₁, only_of_read _ h₂, Token.lowerSign?, Token.upperSign?, Token.brief?]
  | brief =>
    obtain ⟨c₁, _, h₁, h⟩ := h.next
    cases h
    simp only [Expr.value, bothBounds, lowerBound, upperBound, span, relative, briefValue, bound,
      lowerOp_eq_only, upperOp_eq_only, brief_eq_only, dots_eq_only, sideSign_eq_only]
    simp [only_of_read _ h₁, hdots, hside, Token.lowerSign?, Token.upperSign?, Token.brief?]

/-! ## Soundness -/

theorem Sound.words {α : Type} {f : α → Token} {read : Reader α} (h : Sound f read)
    {cs rest : List Char} {x : α} (hr : token read cs = some (x, rest)) :
    ∃ l, Words [f x] [l] cs rest := by
  obtain ⟨l, hs, hl⟩ := h _ _ _ hr
  exact ⟨l, .of_skipBlank hs hl⟩

/-- The rest of a text after words, or what is left of it when a `T` is lost. -/
def Leaves (tail rest : List Char) : Prop :=
  tail = rest ∨ tail = 'T' :: rest ∧ noDigit rest = false

theorem amounts_words {a : Amounts} {cs rest : List Char} (h : token amounts cs = some (a, rest)) :
    ∃ l tail, Words [.duration a] [l] cs tail ∧ Leaves tail rest := by
  obtain ⟨l, hl, heq | ⟨heq, hdigit⟩⟩ := amounts_sound h
  · exact ⟨l, rest, .of_skipBlank (.duration hl) heq, .inl rfl⟩
  · exact ⟨l, _, .of_skipBlank (.duration hl) heq, .inr ⟨rfl, hdigit⟩⟩

theorem dropComma_sound (cs : List Char) :
    dropComma cs = cs ∨ Words [.comma] [[',']] cs (dropComma cs) := by
  unfold dropComma
  split
  · rename_i rest heq
    exact .inr (.of_skipBlank .comma heq)
  · exact .inl rfl

/-- What is read has the form of a value. -/
def SoundValue (read : Reader Value) : Prop :=
  ∀ cs v rest, read cs = some (v, rest) →
    ∃ ts ls tail, v.Form ts ∧ Words ts ls cs tail ∧ Leaves tail rest

theorem SoundValue.orElse {p q : Reader Value} (hp : SoundValue p) (hq : SoundValue q) :
    SoundValue fun cs => p cs <|> q cs := by
  intro cs v rest h
  cases hc : p cs with
  | none => exact hq _ _ _ (by simpa [hc] using h)
  | some x => exact hp _ _ _ (by simpa [hc] using h)

theorem bound_words {f : Bool → Token} {op : Reader Bool} (hop : Sound f op) {cs rest : List Char}
    {b : Bound} (h : bound op cs = some (b, rest)) :
    ∃ ls, Words [f b.strict, .brief b.edge] ls cs rest := by
  simp only [bound, bind, Option.bind_eq_some_iff] at h
  obtain ⟨⟨strict, c₁⟩, h₁, ⟨edge, c₂⟩, h₂, h⟩ := h
  cases h
  obtain ⟨l, hl⟩ := hop.words h₁
  obtain ⟨m, hm⟩ := brief_isSound.words h₂
  exact ⟨[l] ++ [m], hl.append hm⟩

theorem bothBounds_sound : SoundValue bothBounds := by
  intro cs v rest h
  simp only [bothBounds, bind, Option.bind_eq_some_iff] at h
  obtain ⟨⟨lower, c₁⟩, h₁, ⟨upper, c₂⟩, h₂, h⟩ := h
  cases h
  obtain ⟨ls, hl⟩ := bound_words lowerOp_isSound h₁
  obtain ⟨ms, hm⟩ := bound_words upperOp_isSound h₂
  rcases dropComma_sound c₁ with hcomma | hcomma
  · rw [hcomma] at hm
    exact ⟨_, _, _, .between, hl.append hm, .inl rfl⟩
  · exact ⟨_, _, _, .betweenComma, hl.append (hcomma.append hm), .inl rfl⟩

theorem lowerBound_sound : SoundValue lowerBound := by
  intro cs v rest h
  simp only [lowerBound, bind, Option.bind_eq_some_iff] at h
  obtain ⟨⟨b, c₁⟩, h₁, h⟩ := h
  cases h
  obtain ⟨ls, hl⟩ := bound_words lowerOp_isSound h₁
  exact ⟨_, _, _, .lower, hl, .inl rfl⟩

theorem upperBound_sound : SoundValue upperBound := by
  intro cs v rest h
  simp only [upperBound, bind, Option.bind_eq_some_iff] at h
  obtain ⟨⟨b, c₁⟩, h₁, h⟩ := h
  cases h
  obtain ⟨ls, hl⟩ := bound_words upperOp_isSound h₁
  exact ⟨_, _, _, .upper, hl, .inl rfl⟩

theorem span_sound : SoundValue span := by
  intro cs v rest h
  simp only [span, bind, Option.bind_eq_some_iff] at h
  obtain ⟨⟨a, c₁⟩, h₁, ⟨_, c₂⟩, h₂, ⟨b, c₃⟩, h₃, h⟩ := h
  cases h
  obtain ⟨l, hl⟩ := brief_isSound.words h₁
  obtain ⟨m, hm⟩ := dots_isSound.words h₂
  obtain ⟨n, hn⟩ := brief_isSound.words h₃
  exact ⟨_, _, _, .span, hl.append (hm.append hn), .inl rfl⟩

theorem relative_sound : SoundValue relative := by
  intro cs v rest h
  simp only [relative, bind, Option.bind_eq_some_iff] at h
  obtain ⟨⟨a, c₁⟩, h₁, ⟨side, c₂⟩, h₂, ⟨d, c₃⟩, h₃, h⟩ := h
  cases h
  obtain ⟨l, hl⟩ := brief_isSound.words h₁
  obtain ⟨m, hm⟩ := sideSign_isSound.words h₂
  obtain ⟨n, tail, hn, hleave⟩ := amounts_words h₃
  exact ⟨_, _, _, .relative, hl.append (hm.append hn), hleave⟩

theorem briefValue_sound : SoundValue briefValue := by
  intro cs v rest h
  simp only [briefValue, bind, Option.bind_eq_some_iff] at h
  obtain ⟨⟨b, c₁⟩, h₁, h⟩ := h
  cases h
  obtain ⟨l, hl⟩ := brief_isSound.words h₁
  exact ⟨_, _, _, .brief, hl, .inl rfl⟩

theorem durationValue_sound : SoundValue durationValue := by
  intro cs v rest h
  simp only [durationValue, bind, Option.bind_eq_some_iff] at h
  obtain ⟨⟨a, c₁⟩, h₁, h⟩ := h
  cases h
  obtain ⟨l, tail, hl, hleave⟩ := amounts_words h₁
  exact ⟨_, _, _, .duration, hl, hleave⟩

theorem value_sound : SoundValue value :=
  bothBounds_sound.orElse <| lowerBound_sound.orElse <| upperBound_sound.orElse <|
    span_sound.orElse <| relative_sound.orElse <| briefValue_sound.orElse durationValue_sound

end DateSpan.Expr
