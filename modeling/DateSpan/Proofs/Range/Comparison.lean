import DateSpan.Proofs.Range.Reading

/-! Briefs under comparison operators. A brief denotes the versions it covers, and an operator
before it compares versions with all of them. -/

namespace DateSpan.Range

open Calendar DateSpan.Expr

variable {p : Policy} {s : String} {b : Brief} {first last : Version}

/-! ## Texts -/

theorem derivation_brief (hs : Derives s.toList ⟨.brief b, []⟩) :
    ∃ ls, Derivation s.toList ⟨.brief b, []⟩ [.brief b] ls := by
  obtain ⟨ts, ls, hw, hf⟩ := hs
  cases hf with
  | single hv =>
    cases hv
    exact ⟨ls, hw, .single .brief⟩
  | cons _ hvs => cases hvs

/-- An operator may stand right before a text. -/
theorem derivation_operator {t : Token} {op : String} (hop : t.Spelled op.toList) {v : Value}
    (hv : v.Form [t, .brief b]) (hs : Derives s.toList ⟨.brief b, []⟩) :
    ∃ ls, Derivation (op ++ s).toList ⟨v, []⟩ [t, .brief b] ls := by
  obtain ⟨ls, ⟨⟨rest, hw, hr⟩, -⟩⟩ := derivation_brief hs
  refine ⟨op.toList :: ls, ⟨⟨rest, ?_, hr⟩, .single hv⟩⟩
  rw [String.toList_append]
  exact .front_cons hop hw

/-! ## Bounds -/

theorem ofText_brief (hp : p.Valid) (hs : Derives s.toList ⟨.brief b, []⟩)
    (h : b.ends false = .ok (.closed first, .closed last)) :
    ofText p s = ofBounds ⟨some (.closed first), some (.closed last)⟩ := by
  obtain ⟨ls, hder⟩ := derivation_brief hs
  rw [ofText_eq hp hder (by simp), Value.resolve, Brief.resolve_outcome h]
  rfl

theorem ofText_lower (hp : p.Valid) (hs : Derives s.toList ⟨.brief b, []⟩)
    (h : b.ends false = .ok (.closed first, .closed last)) {op : String} {strict : Bool}
    (hop : (Token.lowerSign strict).Spelled op.toList) :
    ofText p (op ++ s) = ofBounds ⟨some ⟨if strict then last else first, strict⟩, none⟩ := by
  obtain ⟨ls, hder⟩ := derivation_operator hop (.lower) hs
  rw [ofText_eq hp hder (by simp), Value.resolve_lower h]
  rfl

theorem ofText_upper (hp : p.Valid) (hs : Derives s.toList ⟨.brief b, []⟩)
    (h : b.ends false = .ok (.closed first, .closed last)) {op : String} {strict : Bool}
    (hop : (Token.upperSign strict).Spelled op.toList) :
    ofText p (op ++ s) = ofBounds ⟨none, some ⟨if strict then first else last, strict⟩⟩ := by
  obtain ⟨ls, hder⟩ := derivation_operator hop (.upper) hs
  rw [ofText_eq hp hder (by simp), Value.resolve_upper h]
  rfl

/-! ## Membership -/

theorem exists_lower (a : Anchor) :
    ∃ r, ofBounds ⟨some a, none⟩ = .ok r ∧ ∀ v, r.contains v ↔ a.lowerSecond ≤ v.seconds := by
  obtain ⟨r, hr, hmem⟩ := exists_of_bounds (b := ⟨some a, none⟩) rfl rfl (Limit.le_above _)
    (Limit.le_above _)
  refine ⟨r, hr, fun v => ?_⟩
  rw [hmem]
  exact (and_iff_left (Limit.le_above _)).trans (Limit.second_le_second _ _)

theorem exists_upper {a : Anchor} (h : 0 ≤ a.upperSecond) :
    ∃ r, ofBounds ⟨none, some a⟩ = .ok r ∧ ∀ v, r.contains v ↔ v.seconds ≤ a.upperSecond := by
  obtain ⟨r, hr, hmem⟩ := exists_of_bounds (b := ⟨none, some a⟩) rfl rfl (Limit.below_le _)
    ((Limit.second_le_second _ _).mpr h)
  refine ⟨r, hr, fun v => ?_⟩
  rw [hmem]
  exact (and_iff_right (Limit.below_le _)).trans (Limit.second_le_second _ _)

/-- No range ends before 1970. -/
theorem exists_fault {a : Anchor} (h : a.upperSecond < 0) :
    ∃ f, ofBounds ⟨none, some a⟩ = .error f ∧ f.classOf = .logic := by
  cases hr : ofBounds ⟨none, some a⟩ with
  | error f => exact ⟨f, rfl, ofBounds_error hr⟩
  | ok r =>
    have hzero := r.zero_le_last
    rw [ofBounds_eq_ok_iff.mp hr] at hzero
    have := (Limit.second_le_second 0 a.upperSecond).mp hzero
    omega

/-! ## Operators -/

section Operators

variable (hp : p.Valid) (hs : Derives s.toList ⟨.brief b, []⟩)
  (h : b.ends false = .ok (.closed first, .closed last))

include hp hs h

theorem ofText_between (hle : first.seconds ≤ last.seconds) :
    ∃ r, ofText p s = .ok r ∧
      ∀ v, r.contains v ↔ first.seconds ≤ v.seconds ∧ v.seconds ≤ last.seconds := by
  rw [ofText_brief hp hs h]
  exact exists_between hle

theorem ofText_greater :
    ∃ r, ofText p (">" ++ s) = .ok r ∧ ∀ v, r.contains v ↔ last.seconds < v.seconds := by
  have hop : (Token.lowerSign true).Spelled ">".toList := .greater
  have htext : ofText p (">" ++ s) = ofBounds ⟨some ⟨last, true⟩, none⟩ := by
    rw [ofText_lower hp hs h hop, if_pos rfl]
  obtain ⟨r, hr, hmem⟩ := exists_lower ⟨last, true⟩
  refine ⟨r, htext.trans hr, fun v => ?_⟩
  rw [hmem, Anchor.lowerSecond_open]
  omega

theorem ofText_greaterOrEqual :
    ∃ r, ofText p (">=" ++ s) = .ok r ∧ ∀ v, r.contains v ↔ first.seconds ≤ v.seconds := by
  have hop : (Token.lowerSign false).Spelled ">=".toList := .greaterOrEqual
  have htext : ofText p (">=" ++ s) = ofBounds ⟨some (.closed first), none⟩ := by
    rw [ofText_lower hp hs h hop, if_neg Bool.false_ne_true, Anchor.closed]
  obtain ⟨r, hr, hmem⟩ := exists_lower (.closed first)
  refine ⟨r, htext.trans hr, fun v => ?_⟩
  rw [hmem, Anchor.lowerSecond_closed]
  omega

theorem ofText_lessOrEqual :
    ∃ r, ofText p ("<=" ++ s) = .ok r ∧ ∀ v, r.contains v ↔ v.seconds ≤ last.seconds := by
  have hop : (Token.upperSign false).Spelled "<=".toList := .lessOrEqual
  have htext : ofText p ("<=" ++ s) = ofBounds ⟨none, some (.closed last)⟩ := by
    rw [ofText_upper hp hs h hop, if_neg Bool.false_ne_true, Anchor.closed]
  have hedge := Anchor.upperSecond_closed last
  obtain ⟨r, hr, hmem⟩ := exists_upper (a := .closed last) (by omega)
  refine ⟨r, htext.trans hr, fun v => ?_⟩
  rw [hmem, hedge]
  omega

theorem ofText_less_eq : ofText p ("<" ++ s) = ofBounds ⟨none, some ⟨first, true⟩⟩ := by
  have hop : (Token.upperSign true).Spelled "<".toList := .less
  rw [ofText_upper hp hs h hop, if_pos rfl]

theorem ofText_less (hpos : first.seconds ≠ 0) :
    ∃ r, ofText p ("<" ++ s) = .ok r ∧ ∀ v, r.contains v ↔ v.seconds < first.seconds := by
  have hedge := Anchor.upperSecond_open first
  obtain ⟨r, hr, hmem⟩ := exists_upper (a := ⟨first, true⟩) (by omega)
  refine ⟨r, (ofText_less_eq hp hs h).trans hr, fun v => ?_⟩
  rw [hmem, hedge]
  omega

theorem ofText_less_fault (hzero : first.seconds = 0) :
    ∃ f, ofText p ("<" ++ s) = .error f ∧ f.classOf = .logic := by
  have hedge := Anchor.upperSecond_open first
  obtain ⟨f, hf, hclass⟩ := exists_fault (a := ⟨first, true⟩) (by omega)
  exact ⟨f, (ofText_less_eq hp hs h).trans hf, hclass⟩

end Operators

/-- The text denotes a range with the version in it. -/
def Holds (p : Policy) (s : String) (v : Version) : Prop :=
  ∃ r, ofText p s = .ok r ∧ r.contains v

theorem holds_iff {r : Range} (h : ofText p s = .ok r) (v : Version) :
    Holds p s v ↔ r.contains v := by
  constructor
  · rintro ⟨r', h', hv⟩
    rw [h] at h'
    cases h'
    exact hv
  · exact fun hv => ⟨r, h, hv⟩

theorem not_holds {f : Fault} (h : ofText p s = .error f) (v : Version) : ¬ Holds p s v := by
  rintro ⟨r, h', -⟩
  rw [h] at h'
  cases h'

/-- A brief and the four comparisons with it. -/
theorem ofText_comparisons (hp : p.Valid) (hs : Derives s.toList ⟨.brief b, []⟩) (hb : b.Valid) :
    ∃ first last : Version,
      (b.Covers first ∧ b.Covers last ∧
        ∀ v, b.Covers v → first.seconds ≤ v.seconds ∧ v.seconds ≤ last.seconds) ∧
      (∃ r, ofText p s = .ok r ∧ ∀ v, r.contains v ↔ b.Covers v) ∧
      (∃ r, ofText p (">" ++ s) = .ok r ∧
        ∀ v, r.contains v ↔ ∀ w, b.Covers w → w.seconds < v.seconds) ∧
      (∃ r, ofText p (">=" ++ s) = .ok r ∧ ∀ v, r.contains v ↔ first.seconds ≤ v.seconds) ∧
      (∃ r, ofText p ("<=" ++ s) = .ok r ∧ ∀ v, r.contains v ↔ v.seconds ≤ last.seconds) ∧
      (b.firstCivil ≠ epochCivil → ∃ r, ofText p ("<" ++ s) = .ok r ∧
        ∀ v, r.contains v ↔ ∀ w, b.Covers w → v.seconds < w.seconds) ∧
      (b.firstCivil = epochCivil → ∃ f, ofText p ("<" ++ s) = .error f ∧ f.classOf = .logic) ∧
      ∀ v, (Holds p ("<" ++ s) v ∨ Holds p s v ∨ Holds p (">" ++ s) v) ∧
        ¬ (Holds p ("<" ++ s) v ∧ Holds p s v) ∧ ¬ (Holds p s v ∧ Holds p (">" ++ s) v) ∧
        ¬ (Holds p ("<" ++ s) v ∧ Holds p (">" ++ s) v) := by
  obtain ⟨first, last, hends, hfirst, hlast⟩ := hb.ends_eq
  have hcovers := Brief.covers_iff hfirst hlast
  have hcoversFirst : b.Covers first := by
    rw [Brief.Covers, hfirst]
    exact b.reads_firstCivil
  have hcoversLast : b.Covers last := by
    rw [Brief.Covers, hlast]
    exact b.reads_lastCivil
  have hle := ((hcovers first).mp hcoversFirst).2
  have hzero : first.seconds = 0 ↔ b.firstCivil = epochCivil := by
    rw [first.seconds_eq_zero_iff, hfirst]
  have hafter : ∀ v : Version,
      (∀ w, b.Covers w → w.seconds < v.seconds) ↔ last.seconds < v.seconds := by
    intro v
    constructor
    · exact fun h => h last hcoversLast
    · exact fun h w hw => Nat.lt_of_le_of_lt ((hcovers w).mp hw).2 h
  have hbefore : ∀ v : Version,
      (∀ w, b.Covers w → v.seconds < w.seconds) ↔ v.seconds < first.seconds := by
    intro v
    constructor
    · exact fun h => h first hcoversFirst
    · exact fun h w hw => Nat.lt_of_lt_of_le h ((hcovers w).mp hw).1
  obtain ⟨r, hr, hmem⟩ := ofText_between hp hs hends hle
  obtain ⟨rgt, hrgt, hgt⟩ := ofText_greater hp hs hends
  have hless : first.seconds ≠ 0 → ∃ r, ofText p ("<" ++ s) = .ok r ∧
      ∀ v, r.contains v ↔ v.seconds < first.seconds := ofText_less hp hs hends
  have hfault := ofText_less_fault hp hs hends
  have hholds : ∀ v, Holds p ("<" ++ s) v ↔ v.seconds < first.seconds := by
    intro v
    by_cases hz : first.seconds = 0
    · obtain ⟨f, hf, -⟩ := hfault hz
      exact iff_of_false (not_holds hf v) (by omega)
    · obtain ⟨rlt, hrlt, hlt⟩ := hless hz
      rw [holds_iff hrlt, hlt]
  refine ⟨first, last, ⟨hcoversFirst, hcoversLast, fun v => (hcovers v).mp⟩,
    ⟨r, hr, fun v => (hmem v).trans (hcovers v).symm⟩,
    ⟨rgt, hrgt, fun v => (hgt v).trans (hafter v).symm⟩,
    ofText_greaterOrEqual hp hs hends, ofText_lessOrEqual hp hs hends, ?_, ?_, ?_⟩
  · intro hne
    obtain ⟨rlt, hrlt, hlt⟩ := hless (hzero.not.mpr hne)
    exact ⟨rlt, hrlt, fun v => (hlt v).trans (hbefore v).symm⟩
  · exact fun heq => hfault (hzero.mpr heq)
  · intro v
    rw [hholds, holds_iff hr, holds_iff hrgt, hmem, hgt]
    omega

theorem derives_year : Derives "1970".toList ⟨.brief (.year 1970), []⟩ := by
  have htext : "1970".toList = ['1', '9', '7', '0'] ++ [] := by decide
  have hyear : BriefText (.year 1970) ['1', '9', '7', '0'] :=
    .year ⟨⟨[1, 9, 7, 0], by decide, rfl⟩, rfl⟩
  rw [htext]
  exact ⟨_, _, ⟨[], .front_cons (.brief hyear) .nil, nofun⟩, .single .brief⟩

/-- Nothing comes before the first year. -/
theorem ofText_comparisons_year :
    Policy.plain.Valid ∧ Derives "1970".toList ⟨.brief (.year 1970), []⟩ ∧
      (Brief.year 1970).Valid ∧
      (∃ r, ofText .plain "1970" = .ok r ∧ ∀ v, r.contains v ↔ (Brief.year 1970).Covers v) ∧
      ∃ f, ofText .plain ("<" ++ "1970") = .error f ∧ f.classOf = .logic := by
  have hvalid : (Brief.year 1970).Valid := ⟨by constructor <;> decide, by decide⟩
  obtain ⟨first, last, -, hbrief, -, -, -, -, hfault, -⟩ :=
    ofText_comparisons Policy.plain_valid derives_year hvalid
  exact ⟨Policy.plain_valid, derives_year, hvalid, hbrief, hfault rfl⟩

end DateSpan.Range
