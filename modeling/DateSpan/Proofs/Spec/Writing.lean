import DateSpan.Proofs.Range.Writing
import DateSpan.Spec.Coercion
import Mathlib.Data.List.Forall2

/-! Written specs. The text of a spec is a list of the texts of its ranges, and what is written is
read again, up to the anchors of ranges with one version. -/

namespace DateSpan

open DateSpan.Expr Text

variable {p : Policy}

namespace Range

theorem ofValue_of_writes (hp : p.Valid) {s : String} {v : Value} {r : Range}
    (h : Writes s v r.toBounds) : ofValue p v = .ok r := by
  obtain ⟨ts, -, -, -, hbounds⟩ := h
  rw [ofValue_eq hp, hbounds]
  exact ofBounds_toBounds r

theorem ofText_of_writes (hp : p.Valid) {s : String} {v : Value} {r : Range}
    (h : Writes s v r.toBounds) : ofText p s = .ok r := by
  obtain ⟨ts, hf, hts, hw, hbounds⟩ := h
  obtain ⟨ls, hw⟩ := hw []
  rw [List.append_nil] at hw
  have hder : Derivation s.toList ⟨v, []⟩ ts ls := ⟨⟨[], hw, nofun⟩, .single hf⟩
  rw [ofText_eq hp hder hts, hbounds]
  exact ofBounds_toBounds r

/-- A written range is read as an equal one, with the same anchors unless it has one version. -/
theorem ofText_text (hp : p.Valid) (r : Range) :
    ∃ r', ofText p r.text = .ok r' ∧ r'.equals r ∧ r'.text = r.text ∧
      (r.isSingular = false → r' = r) := by
  obtain ⟨v, r', hwrites, hequals, htext, hsame⟩ := writes_text r
  exact ⟨r', ofText_of_writes hp hwrites, hequals, htext, hsame⟩

end Range

namespace Spec

/-- The text is that of values without durations, which give the ranges. -/
def Writes (p : Policy) (s : String) (vs : List Value) (rs : List Range) : Prop :=
  ∃ ts ls, Values.Form vs ts ∧ (∀ a, .duration a ∉ ts) ∧ Words ts ls s.toList [] ∧
    vs.mapM (Range.ofValue p) = .ok rs

theorem writes_single (hp : p.Valid) {s : String} {v : Value} {r : Range}
    (h : Range.Writes s v r.toBounds) : Writes p s [v] [r] := by
  have hvalue := Range.ofValue_of_writes hp h
  obtain ⟨ts, hf, hts, hw, -⟩ := h
  obtain ⟨ls, hw⟩ := hw []
  rw [List.append_nil] at hw
  refine ⟨ts, ls, .single hf, hts, hw, ?_⟩
  rw [List.mapM_cons, hvalue]
  rfl

theorem writes_cons (hp : p.Valid) {s t : String} {v : Value} {r : Range} {vs : List Value}
    {rs : List Range} (h : Range.Writes s v r.toBounds) (h' : Writes p t vs rs) :
    Writes p (s ++ " || " ++ t) (v :: vs) (r :: rs) := by
  have hvalue := Range.ofValue_of_writes hp h
  obtain ⟨ts, hf, hts, hw, -⟩ := h
  obtain ⟨us, ms, hf', hts', hw', hvs⟩ := h'
  obtain ⟨ls, hw⟩ := hw (' ' :: '|' :: '|' :: ' ' :: t.toList)
  obtain ⟨u, us, rfl, -⟩ := hf'.cons_token
  have hsign : Words (.orSign :: u :: us) (['|', '|'] :: ms) ('|' :: '|' :: ' ' :: t.toList) [] :=
    .front_cons .double (hw'.blank rfl)
  have hall := hw.append (hsign.blank rfl)
  refine ⟨_, ls ++ ['|', '|'] :: ms, .cons hf hf', ?_, ?_, ?_⟩
  · intro a ha
    rcases List.mem_append.mp ha with ha | ha
    · exact hts a ha
    · cases ha with
      | tail _ ha => exact hts' a ha
  · rw [String.toList_append, String.toList_append, List.append_assoc]
    exact hall
  · rw [List.mapM_cons, hvalue, hvs]
    rfl

/-- Some ranges with signs between them are written as values that give equal ranges. -/
theorem writes_ranges (hp : p.Valid) {ranges : List Range} (h : ranges ≠ []) :
    ∃ vs rs, Writes p (" || ".intercalate (ranges.map Range.text)) vs rs ∧
      List.Forall₂ (fun r' r => r'.equals r) rs ranges := by
  induction ranges with
  | nil => exact absurd rfl h
  | cons r ranges ih =>
    obtain ⟨v, r', hwrites, hequals, -, -⟩ := Range.writes_text r
    cases ranges with
    | nil =>
      refine ⟨[v], [r'], ?_, .cons hequals .nil⟩
      rw [List.map_singleton, String.intercalate_singleton]
      exact writes_single hp hwrites
    | cons s ranges =>
      obtain ⟨vs, rs, hmore, hall⟩ := ih (List.cons_ne_nil s ranges)
      refine ⟨v :: vs, r' :: rs, ?_, .cons hequals hall⟩
      rw [List.map_cons, List.map_cons, String.intercalate_cons_cons, ← List.map_cons]
      exact writes_cons hp hwrites hmore

theorem ofText_of_writes (hp : p.Valid) {s : String} {vs : List Value} {rs : List Range}
    (h : Writes p s vs rs) : ofText p s = ofRanges rs := by
  obtain ⟨ts, ls, hf, hts, hw, hvs⟩ := h
  cases vs with
  | nil => cases hf
  | cons v vs =>
    have hder : Derivation s.toList ⟨v, vs⟩ ts ls := ⟨⟨[], hw, nofun⟩, hf⟩
    have hread : p.read s = .ok ⟨v, vs⟩ :=
      (Policy.read_eq_ok_iff hp).mpr ⟨ts, ls, hder, hw.short hts⟩
    rw [ofText, hread]
    exact congrArg (· >>= ofRanges) hvs

theorem equals_iff {s t : Spec} :
    s.equals t ↔ List.Forall₂ (fun r' r => r'.equals r) s.ranges t.ranges := by
  rw [equals, Bool.and_eq_true, beq_iff_eq, List.all_eq_true, List.forall₂_iff_zip]
  apply and_congr_right
  intro _
  constructor
  · intro h a b hab
    exact h (a, b) hab
  · intro h x hx
    exact h hx

theorem ofText_text (hp : p.Valid) (s : Spec) :
    ∃ s', ofText p s.text = .ok s' ∧
      List.Forall₂ (fun r' r => r'.equals r) s'.ranges s.ranges := by
  obtain ⟨vs, rs, hwrites, hall⟩ := writes_ranges hp s.nonempty
  have hne : rs ≠ [] := by
    rintro rfl
    exact s.nonempty (List.forall₂_nil_left_iff.mp hall)
  refine ⟨⟨rs, hne⟩, ?_, hall⟩
  rw [text, ofText_of_writes hp hwrites, ofRanges, dif_neg hne]

end Spec

/-- Ranges and specs are read back from their own texts: equal ones, a range with the same text, and
with the same anchors unless it has one version. -/
theorem written_read (hp : p.Valid) :
    (∀ r : Range, ∃ r', Range.make p (.text r.text) .null .null = .ok r' ∧ r'.equals r ∧
      r'.text = r.text ∧
      (r.isSingular = false → r'.lower = r.lower ∧ r'.upper = r.upper)) ∧
    ∀ s : Spec, ∃ s', Spec.ofDatum p (.text s.text) = .ok s' ∧ s'.equals s ∧
      s'.ranges.length = s.ranges.length ∧
      List.Forall₂ (fun r' r => r'.equals r) s'.ranges s.ranges := by
  constructor
  · intro r
    obtain ⟨r', hr, hequals, htext, hsame⟩ := Range.ofText_text hp r
    refine ⟨r', hr, hequals, htext, ?_⟩
    intro hsing
    rw [hsame hsing]
    exact ⟨rfl, rfl⟩
  · intro s
    obtain ⟨s', hs, hall⟩ := Spec.ofText_text hp s
    exact ⟨s', hs, Spec.equals_iff.mpr hall, hall.length_eq, hall⟩

/-- The range of everything after the first second is read back with its open anchor. -/
theorem written_read_after_epoch :
    Policy.plain.Valid ∧
      ∃ r, Range.make .plain (.text ">1970-01-01T00:00:00Z") .null .null = .ok r ∧
        r.lower = some ⟨⟨0, by decide⟩, true⟩ ∧ r.upper = none := by
  let after : Range := ⟨⟨some ⟨⟨0, by decide⟩, true⟩, none⟩, rfl, rfl, by decide⟩
  have htext : after.text = ">1970-01-01T00:00:00Z" := by decide
  obtain ⟨r, hr, -, -, hsame⟩ := (written_read Policy.plain_valid).1 after
  obtain ⟨hlower, hupper⟩ := hsame rfl
  rw [htext] at hr
  exact ⟨Policy.plain_valid, r, hr, hlower, hupper⟩

end DateSpan
