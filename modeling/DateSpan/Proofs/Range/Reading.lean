import DateSpan.Proofs.Expr.Briefs
import DateSpan.Proofs.Expr.Reading
import DateSpan.Proofs.Range.Limit

/-! Ranges from texts. A derived text gives the range of its value, and the bounds of a value come
from the ends of its briefs. -/

namespace DateSpan

open Calendar DateSpan.Expr Text

namespace Expr

theorem Traced.under_ok {α : Type} (b : Bool) (t : Traced α) : t.under (.ok b) = t.outcome := by
  unfold Traced.under
  split
  · rename_i h _
    cases h
  · rfl

section Bounds

variable {b b' : Brief} {first last first' last' : Version}

theorem Brief.resolve_outcome {minimum : Bool} {ends : Anchor × Anchor}
    (h : b.ends minimum = .ok ends) :
    (b.resolve minimum).outcome = .ok ⟨some ends.1, some ends.2⟩ := by
  rw [Brief.resolve, Traced.outcome_bind, Traced.outcome_lift, h]
  rfl

theorem Value.resolve_lower (h : b.ends false = .ok (.closed first, .closed last)) (strict : Bool) :
    (Value.resolve false (.lower ⟨strict, b⟩)).outcome =
      .ok ⟨some ⟨if strict then last else first, strict⟩, none⟩ := by
  rw [Value.resolve, Traced.outcome_bind, Brief.resolve_outcome h]
  cases strict <;> rfl

theorem Value.resolve_upper (h : b.ends false = .ok (.closed first, .closed last)) (strict : Bool) :
    (Value.resolve false (.upper ⟨strict, b⟩)).outcome =
      .ok ⟨none, some ⟨if strict then first else last, strict⟩⟩ := by
  rw [Value.resolve, Traced.outcome_bind, Brief.resolve_outcome h]
  cases strict <;> rfl

theorem Value.resolve_between (h : b.ends false = .ok (.closed first, .closed last))
    (h' : b'.ends false = .ok (.closed first', .closed last')) (strict strict' : Bool) :
    (Value.resolve false (.between ⟨strict, b⟩ ⟨strict', b'⟩)).outcome =
      .ok ⟨some ⟨first, strict⟩, some ⟨last', strict'⟩⟩ := by
  simp only [Value.resolve, Traced.outcome_bind, Brief.resolve_outcome h, Brief.resolve_outcome h']
  rfl

end Bounds

/-- Words without a duration have no long number. -/
theorem Words.short {ts : List Token} {ls : List (List Char)} {cs rest : List Char}
    (h : Words ts ls cs rest) (hts : ∀ a, .duration a ∉ ts) : ∀ l ∈ ls, ¬ LongNumber l := by
  intro l hl hlong
  obtain ⟨t, ht, hs⟩ := h.spelled hl
  obtain ⟨a, rfl, -⟩ := hs.duration_of_long hlong
  exact hts a ht

end Expr

namespace Range

variable {p : Policy}

theorem ofValue_eq (hp : p.Valid) (v : Value) :
    ofValue p v = (do ofBounds (← (v.resolve false).outcome)) := by
  obtain ⟨-, ⟨b, hb⟩, -⟩ := hp
  rw [ofValue, hb, Traced.under_ok]

theorem ofText_eq (hp : p.Valid) {s : String} {v : Value} {ts : List Token} {ls : List (List Char)}
    (h : Derivation s.toList ⟨v, []⟩ ts ls) (hts : ∀ a, .duration a ∉ ts) :
    ofText p s = (do ofBounds (← (v.resolve false).outcome)) := by
  obtain ⟨rest, hw, -⟩ := h.words
  have hread : p.read s = .ok ⟨v, []⟩ :=
    (Policy.read_eq_ok_iff hp).mpr ⟨ts, ls, h, hw.short hts⟩
  rw [ofText, hread, ← ofValue_eq hp]
  rfl

end Range

end DateSpan
