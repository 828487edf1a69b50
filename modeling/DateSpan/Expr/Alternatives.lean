import DateSpan.Expr.Reader

/-! Lists of alternatives. A value leaves less text than it was given (`value_shortens`), so that
reading them comes to an end. -/

namespace DateSpan.Expr

open Text

/-- The reader takes at least one character. -/
def Shortens {α : Type} (read : Reader α) : Prop :=
  ∀ cs x rest, read cs = some (x, rest) → rest.length < cs.length

/-- The reader leaves no more text than it was given. -/
def KeepsBelow {α : Type} (read : Reader α) : Prop :=
  ∀ cs x rest, read cs = some (x, rest) → rest.length ≤ cs.length

theorem length_skipBlank_le (cs : List Char) : (skipBlank cs).length ≤ cs.length := by
  unfold skipBlank
  induction cs with
  | nil => simp
  | cons c cs ih =>
    rw [List.dropWhile_cons]
    split
    · simp only [List.length_cons]; omega
    · simp

theorem Shortens.token {α : Type} {read : Reader α} (h : Shortens read) : Shortens (token read) := by
  intro cs x rest hr
  have := h _ _ _ hr
  have := length_skipBlank_le cs
  omega

theorem length_digits {n : Nat} {cs ds rest} (h : digits n cs = some (ds, rest)) :
    rest.length + n = cs.length := by
  induction n generalizing cs ds rest with
  | zero => simp only [digits, Option.some.injEq, Prod.mk.injEq] at h; simp [h.2]
  | succ n ih =>
    cases cs with
    | nil => simp [digits] at h
    | cons c cs =>
      simp only [digits, bind, Option.bind_eq_some_iff] at h
      obtain ⟨d, _, ⟨es, tail⟩, hd, he⟩ := h
      simp only [Option.some.injEq, Prod.mk.injEq] at he
      have := ih hd
      rw [← he.2, List.length_cons]
      omega

theorem length_number {n : Nat} {cs x rest} (h : number n cs = some (x, rest)) :
    rest.length + n = cs.length := by
  simp only [number, bind, Option.bind_eq_some_iff] at h
  obtain ⟨⟨ds, tail⟩, hd, he⟩ := h
  simp only [Option.some.injEq, Prod.mk.injEq] at he
  rw [← he.2]
  exact length_digits hd

theorem length_field {mark : Char} {cs x rest} (h : field mark cs = some (x, rest)) :
    rest.length + 3 = cs.length := by
  cases cs with
  | nil => simp [field] at h
  | cons c cs =>
    simp only [field] at h
    split at h
    · have := length_number h
      simp only [List.length_cons]; omega
    · simp at h

theorem length_dropZone_le (cs : List Char) : (dropZone cs).length ≤ cs.length := by
  unfold dropZone
  split <;> simp

theorem compactFields_keepsBelow (year : Nat) : KeepsBelow (compactFields year) := by
  intro cs x rest h
  simp only [compactFields, bind, Option.bind_eq_some_iff] at h
  obtain ⟨⟨mo, c1⟩, h1, ⟨d, c2⟩, h2, ⟨hh, c3⟩, h3, ⟨mi, c4⟩, h4, ⟨s, c5⟩, h5, h6⟩ := h
  have := length_number h1
  have := length_number h2
  have := length_number h3
  have := length_number h4
  have := length_number h5
  dsimp only at *
  split at h6
  · simp only [Option.some.injEq, Prod.mk.injEq] at h6
    rw [← h6.2]; omega
  · simp at h6

theorem brief_shortens : Shortens brief := by
  intro cs x rest h
  simp only [brief, bind, Option.bind_eq_some_iff] at h
  obtain ⟨⟨y, c0⟩, h0, h⟩ := h
  have := length_number h0
  dsimp only at *
  split at h
  · split at h
    · simp only [Option.some.injEq, Prod.mk.injEq] at h
      rw [← h.2]; omega
    · have := compactFields_keepsBelow _ _ _ _ h
      omega
  · rename_i hm
    have := length_field hm
    split at h
    · simp only [Option.some.injEq, Prod.mk.injEq] at h
      rw [← h.2]; omega
    · rename_i hd
      have := length_field hd
      split at h
      · simp only [Option.some.injEq, Prod.mk.injEq] at h
        rw [← h.2]; omega
      · rename_i hh
        have := length_field hh
        split at h
        · simp only [Option.some.injEq, Prod.mk.injEq] at h
          rw [← h.2]; omega
        · rename_i hi
          have := length_field hi
          split at h
          · simp only [Option.some.injEq, Prod.mk.injEq] at h
            rw [← h.2]; omega
          · rename_i hs
            have := length_field hs
            simp only [Option.some.injEq, Prod.mk.injEq] at h
            rw [← h.2]
            exact Nat.lt_of_le_of_lt (length_dropZone_le _) (by omega)

theorem length_count_le (designator : Char) (cs : List Char) :
    (count designator cs).2.length ≤ cs.length := by
  unfold count
  have := length_digitRun cs
  split
  · rename_i h
    rw [h] at this
    simp only [List.length_cons] at this
    split
    · dsimp only; omega
    · exact Nat.le_refl _
  · exact Nat.le_refl _

theorem length_timeCounts_le (cs : List Char) : (timeCounts cs).2.length ≤ cs.length := by
  unfold timeCounts
  split
  · rename_i body
    split
    · exact Nat.le_refl _
    · have h1 := length_count_le 'H' body
      have h2 := length_count_le 'M' (count 'H' body).2
      have h3 := length_count_le 'S' (count 'M' (count 'H' body).2).2
      simp only [List.length_cons]
      omega
  · exact Nat.le_refl _

theorem amounts_shortens : Shortens amounts := by
  intro cs x rest h
  unfold amounts at h
  split at h
  · rename_i body
    have h1 := length_count_le 'Y' body
    have h2 := length_count_le 'M' (count 'Y' body).2
    have h3 := length_count_le 'D' (count 'M' (count 'Y' body).2).2
    have h4 := length_timeCounts_le (count 'D' (count 'M' (count 'Y' body).2).2).2
    dsimp only at h
    split at h
    · simp only [Option.some.injEq, Prod.mk.injEq] at h
      rw [← h.2]
      simp only [List.length_cons]
      omega
    · simp at h
  · simp at h

theorem lowerOp_shortens : Shortens lowerOp := by
  intro cs x rest h
  unfold lowerOp at h
  split at h <;> simp only [Option.some.injEq, Prod.mk.injEq, reduceCtorEq] at h
  all_goals rw [← h.2]; simp only [List.length_cons]; omega

theorem upperOp_shortens : Shortens upperOp := by
  intro cs x rest h
  unfold upperOp at h
  split at h <;> simp only [Option.some.injEq, Prod.mk.injEq, reduceCtorEq] at h
  all_goals rw [← h.2]; simp only [List.length_cons]; omega

theorem Shortens.bound {op : Reader Bool} (h : Shortens op) : Shortens (bound op) := by
  intro cs x rest hb
  simp only [Expr.bound, bind, Option.bind_eq_some_iff] at hb
  obtain ⟨⟨strict, c1⟩, h1, ⟨b, c2⟩, h2, h3⟩ := hb
  have := h.token _ _ _ h1
  have := brief_shortens.token _ _ _ h2
  simp only [Option.some.injEq, Prod.mk.injEq] at h3
  rw [← h3.2]; dsimp only at *; omega

theorem lowerBound_shortens : Shortens lowerBound := by
  intro cs x rest h
  simp only [lowerBound, bind, Option.bind_eq_some_iff] at h
  obtain ⟨⟨b, c1⟩, h1, h2⟩ := h
  have := lowerOp_shortens.bound _ _ _ h1
  simp only [Option.some.injEq, Prod.mk.injEq] at h2
  rw [← h2.2]; exact this

theorem upperBound_shortens : Shortens upperBound := by
  intro cs x rest h
  simp only [upperBound, bind, Option.bind_eq_some_iff] at h
  obtain ⟨⟨b, c1⟩, h1, h2⟩ := h
  have := upperOp_shortens.bound _ _ _ h1
  simp only [Option.some.injEq, Prod.mk.injEq] at h2
  rw [← h2.2]; exact this

theorem length_dropComma_le (cs : List Char) : (dropComma cs).length ≤ cs.length := by
  unfold dropComma
  have := length_skipBlank_le cs
  split
  · rename_i h
    rw [h] at this
    simp only [List.length_cons] at this
    omega
  · exact Nat.le_refl _

theorem bothBounds_shortens : Shortens bothBounds := by
  intro cs x rest h
  simp only [bothBounds, bind, Option.bind_eq_some_iff] at h
  obtain ⟨⟨l, c1⟩, h1, ⟨u, c2⟩, h2, h3⟩ := h
  have := lowerOp_shortens.bound _ _ _ h1
  have := upperOp_shortens.bound _ _ _ h2
  have := length_dropComma_le c1
  simp only [Option.some.injEq, Prod.mk.injEq] at h3
  rw [← h3.2]; dsimp only at *; omega

theorem dots_shortens : Shortens dots := by
  intro cs x rest h
  unfold dots at h
  split at h <;> simp only [Option.some.injEq, Prod.mk.injEq, reduceCtorEq] at h
  rw [← h.2]; simp only [List.length_cons]; omega

theorem span_shortens : Shortens span := by
  intro cs x rest h
  simp only [span, bind, Option.bind_eq_some_iff] at h
  obtain ⟨⟨a, c1⟩, h1, ⟨_, c2⟩, h2, ⟨b, c3⟩, h3, h4⟩ := h
  have := brief_shortens.token _ _ _ h1
  have := dots_shortens.token _ _ _ h2
  have := brief_shortens.token _ _ _ h3
  simp only [Option.some.injEq, Prod.mk.injEq] at h4
  rw [← h4.2]; dsimp only at *; omega

theorem sideSign_shortens : Shortens sideSign := by
  intro cs x rest h
  unfold sideSign at h
  split at h <;> simp only [Option.some.injEq, Prod.mk.injEq, reduceCtorEq] at h
  all_goals rw [← h.2]; simp only [List.length_cons]; omega

theorem relative_shortens : Shortens relative := by
  intro cs x rest h
  simp only [relative, bind, Option.bind_eq_some_iff] at h
  obtain ⟨⟨a, c1⟩, h1, ⟨_, c2⟩, h2, ⟨d, c3⟩, h3, h4⟩ := h
  have := brief_shortens.token _ _ _ h1
  have := sideSign_shortens.token _ _ _ h2
  have := amounts_shortens.token _ _ _ h3
  simp only [Option.some.injEq, Prod.mk.injEq] at h4
  rw [← h4.2]; dsimp only at *; omega

theorem briefValue_shortens : Shortens briefValue := by
  intro cs x rest h
  simp only [briefValue, bind, Option.bind_eq_some_iff] at h
  obtain ⟨⟨b, c1⟩, h1, h2⟩ := h
  have := brief_shortens.token _ _ _ h1
  simp only [Option.some.injEq, Prod.mk.injEq] at h2
  rw [← h2.2]; exact this

theorem durationValue_shortens : Shortens durationValue := by
  intro cs x rest h
  simp only [durationValue, bind, Option.bind_eq_some_iff] at h
  obtain ⟨⟨b, c1⟩, h1, h2⟩ := h
  have := amounts_shortens.token _ _ _ h1
  simp only [Option.some.injEq, Prod.mk.injEq] at h2
  rw [← h2.2]; exact this

theorem Shortens.orElse {α : Type} {p q : Reader α} (hp : Shortens p) (hq : Shortens q) :
    Shortens fun cs => p cs <|> q cs := by
  intro cs x rest h
  cases hc : p cs with
  | none => exact hq _ _ _ (by simpa [hc] using h)
  | some y => exact hp _ _ _ (by simpa [hc] using h)

theorem value_shortens : Shortens value :=
  bothBounds_shortens.orElse <| lowerBound_shortens.orElse <| upperBound_shortens.orElse <|
    span_shortens.orElse <| relative_shortens.orElse <| briefValue_shortens.orElse
      durationValue_shortens

theorem orSign_shortens : Shortens orSign := by
  intro cs x rest h
  unfold orSign at h
  split at h <;> simp only [Option.some.injEq, Prod.mk.injEq, reduceCtorEq] at h
  all_goals rw [← h.2]; simp only [List.length_cons]; omega

theorem alternative_shortens : Shortens alternative := by
  intro cs x rest h
  simp only [alternative, bind, Option.bind_eq_some_iff] at h
  obtain ⟨⟨_, c1⟩, h1, h2⟩ := h
  have := orSign_shortens.token _ _ _ h1
  have := value_shortens _ _ _ h2
  dsimp only at *; omega

/-- As many alternatives as can be read, and the text after them. -/
def alternatives (cs : List Char) : List Value × List Char :=
  match h : alternative cs with
  | none => ([], cs)
  | some (v, rest) =>
    have : rest.length < cs.length := alternative_shortens _ _ _ h
    let (vs, tail) := alternatives rest
    (v :: vs, tail)
termination_by cs.length

end DateSpan.Expr
