import DateSpan.Proofs.Outcome
import DateSpan.Proofs.Range.Comparison
import DateSpan.Proofs.Range.Containment

/-! Texts with two comparisons. The lower operator compares with the first version of its brief and the
upper one with the last version of its own, also where they are strict, and alone would leave out their
briefs altogether; so the range has the overlap of the two halves in it. -/

namespace DateSpan

open Calendar DateSpan.Expr

namespace Expr

/-- How the versions compare. -/
def Comparison.Holds (op : Comparison) (v w : Version) : Prop :=
  match op with
  | .gt => w.seconds < v.seconds
  | .ge => w.seconds ≤ v.seconds
  | .lt => v.seconds < w.seconds
  | .le => v.seconds ≤ w.seconds

/-- The brief covers the version, and none before it. -/
structure Brief.IsFirst (b : Brief) (v : Version) : Prop where
  covers : b.Covers v
  le : ∀ w, b.Covers w → v.seconds ≤ w.seconds

/-- The brief covers the version, and none after it. -/
structure Brief.IsLast (b : Brief) (v : Version) : Prop where
  covers : b.Covers v
  le : ∀ w, b.Covers w → w.seconds ≤ v.seconds

/-- The ends of a brief are its first and its last version. -/
theorem Brief.Valid.exists_ends {b : Brief} (h : b.Valid) :
    ∃ first last, b.ends false = .ok (.closed first, .closed last) ∧ b.IsFirst first ∧
      b.IsLast last := by
  obtain ⟨first, last, hends, hfirst, hlast⟩ := h.ends_eq
  have hcovers := Brief.covers_iff hfirst hlast
  have hcoversFirst : b.Covers first := by
    rw [Brief.Covers, hfirst]
    exact b.reads_firstCivil
  have hcoversLast : b.Covers last := by
    rw [Brief.Covers, hlast]
    exact b.reads_lastCivil
  exact ⟨first, last, hends, ⟨hcoversFirst, fun w hw => ((hcovers w).mp hw).1⟩,
    ⟨hcoversLast, fun w hw => ((hcovers w).mp hw).2⟩⟩

/-- A brief that is exact to the second is one version. -/
theorem Brief.ends_exact {b : Brief} (hb : b.precision = .second) {first last : Version}
    (h : b.ends false = .ok (.closed first, .closed last)) : first = last := by
  obtain ⟨start, -, hends⟩ := bind_eq_ok h
  rw [hb, spanEnds, if_pos rfl] at hends
  cases hends
  rfl

/-! ## Texts -/

/-- Blanks between two comparisons, perhaps with a comma among them. -/
inductive Separator : List Token → List Char → Prop
  | blank {cs} : Blank cs → Separator [] cs
  | comma {cs ds} : Blank cs → Blank ds → Separator [.comma] (cs ++ ',' :: ds)

theorem Separator.blanks {us : List Token} {cs before : List Char} (h : Separator us cs)
    (hb : Blank before) : Separator us (before ++ cs) := by
  cases h with
  | blank hcs => exact .blank (hb.append hcs)
  | comma hcs hds =>
    rw [← List.append_assoc]
    exact .comma (hb.append hcs) hds

theorem Separator.words {us ts : List Token} {ls : List (List Char)} {t : Token}
    {cs tail rest : List Char} (hsep : Separator us cs) (h : Words (t :: ts) ls tail rest) :
    ∃ ms, Words (us ++ t :: ts) ms (cs ++ tail) rest := by
  cases hsep with
  | blank hb => exact ⟨ls, h.blanks hb⟩
  | @comma cs ds hcs hds =>
    refine ⟨[','] :: ls, ?_⟩
    rw [List.append_assoc]
    exact (Words.front_cons .comma (h.blanks hds)).blanks hcs

/-- A text with a brief starts with its words, and only blanks are left after them. -/
theorem brief_words {b : Brief} {s : String} (hs : Derives s.toList ⟨.brief b, []⟩) :
    ∃ ls used rest, s.toList = used ++ rest ∧ Blank rest ∧
      ∀ more, Words [.brief b] ls (used ++ more) more := by
  obtain ⟨ls, ⟨⟨rest, hw, hr⟩, -⟩⟩ := Range.derivation_brief hs
  obtain ⟨used, hused, hfront⟩ := hw.front
  exact ⟨ls, used, rest, hused, hr, hfront⟩

variable {a b : Brief} {s s' sep : String} {us : List Token}

theorem Separator.form {cs : List Char} (h : Separator us cs) (strict strict' : Bool) :
    (Value.between ⟨strict, a⟩ ⟨strict', b⟩).Form
      (.lowerSign strict :: .brief a :: (us ++ [.upperSign strict', .brief b])) := by
  cases h with
  | blank => exact .between
  | comma => exact .betweenComma

theorem Separator.no_duration {cs : List Char} (h : Separator us cs) (d : Amounts) :
    .duration d ∉ us := by
  cases h <;> simp

theorem lowerSign_spelled (strict : Bool) :
    (Token.lowerSign strict).Spelled (Comparison.lower strict).symbol.toList := by
  cases strict with
  | false => exact .greaterOrEqual
  | true => exact .greater

theorem upperSign_spelled (strict : Bool) :
    (Token.upperSign strict).Spelled (Comparison.upper strict).symbol.toList := by
  cases strict with
  | false => exact .lessOrEqual
  | true => exact .less

/-- Two comparisons one after the other, each with its operator. -/
def boundedText (strict : Bool) (s sep : String) (strict' : Bool) (s' : String) : String :=
  (Comparison.lower strict).symbol ++ s ++ sep ++ (Comparison.upper strict').symbol ++ s'

section

variable (hs : Derives s.toList ⟨.brief a, []⟩) (hs' : Derives s'.toList ⟨.brief b, []⟩)

include hs hs'

theorem derivation_bounded (hsep : Separator us sep.toList) (strict strict' : Bool) :
    ∃ ls, Derivation (boundedText strict s sep strict' s').toList
      ⟨.between ⟨strict, a⟩ ⟨strict', b⟩, []⟩
      (.lowerSign strict :: .brief a :: (us ++ [.upperSign strict', .brief b])) ls := by
  obtain ⟨ls, used, rest, htext, hrest, hw⟩ := brief_words hs
  obtain ⟨ls', used', rest', htext', hrest', hw'⟩ := brief_words hs'
  have hupper := (hw' rest').front_cons (upperSign_spelled strict')
  -- Blanks after the first brief belong to what separates the comparisons.
  obtain ⟨ms, hmore⟩ := (hsep.blanks hrest).words hupper
  have hlower := ((hw _).append hmore).front_cons (lowerSign_spelled strict)
  simp only [← htext', List.append_assoc] at hlower
  rw [← List.append_assoc used, ← htext] at hlower
  simp only [boundedText, String.toList_append, List.append_assoc]
  exact ⟨_, ⟨rest', hlower, hrest'⟩, .single (hsep.form strict strict')⟩

theorem derivation_span :
    ∃ ls, Derivation (s ++ ".." ++ s').toList ⟨.between ⟨false, a⟩ ⟨false, b⟩, []⟩
      [.brief a, .dots, .brief b] ls := by
  obtain ⟨ls, used, rest, htext, hrest, hw⟩ := brief_words hs
  obtain ⟨ls', used', rest', htext', hrest', hw'⟩ := brief_words hs'
  have hdots : Words [.dots, .brief b] ("..".toList :: ls') ("..".toList ++ (used' ++ rest')) rest' :=
    (hw' rest').front_cons .dots
  have hspan := (hw _).append (hdots.blanks hrest)
  rw [← htext', ← List.append_assoc used, ← htext] at hspan
  simp only [String.toList_append, List.append_assoc]
  exact ⟨_, ⟨rest', hspan, hrest'⟩, .single .span⟩

end

end Expr

namespace Range

variable {p : Policy} {a b : Brief} {s s' sep : String} {us : List Token} {strict strict' : Bool}
  {first last first' last' : Version}

/-! ## Bounds -/

section

variable (hp : p.Valid) (hs : Derives s.toList ⟨.brief a, []⟩)
  (hs' : Derives s'.toList ⟨.brief b, []⟩) (hsep : Separator us sep.toList)

include hp hs hs' hsep

theorem ofText_boundedText (strict strict' : Bool) :
    ofText p (boundedText strict s sep strict' s') =
      (do ofBounds (← (Value.resolve false (.between ⟨strict, a⟩ ⟨strict', b⟩)).outcome)) := by
  obtain ⟨ls, hder⟩ := derivation_bounded hs hs' hsep strict strict'
  refine ofText_eq hp hder fun d => ?_
  simp [hsep.no_duration d]

theorem ofText_bounds (h : a.ends false = .ok (.closed first, .closed last))
    (h' : b.ends false = .ok (.closed first', .closed last')) :
    ofText p (boundedText strict s sep strict' s') =
      ofBounds ⟨some ⟨first, strict⟩, some ⟨last', strict'⟩⟩ := by
  rw [ofText_boundedText hp hs hs' hsep, Value.resolve_between h h']
  rfl

theorem ofText_span : ofText p (s ++ ".." ++ s') = ofText p (boundedText false s sep false s') := by
  obtain ⟨ls, hder⟩ := derivation_span hs hs'
  rw [ofText_eq hp hder (by simp), ofText_boundedText hp hs hs' hsep]

end

/-! ## Versions between two anchors -/

theorem lower_holds_iff {v w : Version} :
    (Comparison.lower strict).Holds v w ↔ Anchor.lowerSecond ⟨w, strict⟩ ≤ v.seconds := by
  cases strict with
  | false =>
    rw [← Anchor.closed, Anchor.lowerSecond_closed]
    exact Int.ofNat_le.symm
  | true =>
    rw [Anchor.lowerSecond_open]
    exact Int.ofNat_lt.symm

theorem upper_holds_iff {v w : Version} :
    (Comparison.upper strict).Holds v w ↔ v.seconds ≤ Anchor.upperSecond ⟨w, strict⟩ := by
  cases strict with
  | false =>
    rw [← Anchor.closed, Anchor.upperSecond_closed]
    exact Int.ofNat_le.symm
  | true =>
    rw [Anchor.upperSecond_open]
    change v.seconds < w.seconds ↔ _
    omega

section

variable {l u : Anchor} {r : Range}

theorem contains_between (h : r.toBounds = ⟨some l, some u⟩) (v : Version) :
    r.contains v ↔ l.lowerSecond ≤ v.seconds ∧ v.seconds ≤ u.upperSecond := by
  rw [contains_iff, h]
  exact and_congr (Limit.second_le_second _ _) (Limit.second_le_second _ _)

/-- Two anchors make a range just when some version lies between them. -/
theorem exists_between_iff :
    (∃ r, ofBounds ⟨some l, some u⟩ = .ok r) ↔
      ∃ v : Version, l.lowerSecond ≤ v.seconds ∧ v.seconds ≤ u.upperSecond := by
  constructor
  · rintro ⟨r, hr⟩
    have hbounds := ofBounds_eq_ok_iff.mp hr
    have hne : r.toBounds ≠ .afterFinal := by
      rw [hbounds]
      exact nofun
    obtain ⟨v, hv⟩ := Bounds.exists_holds r.first_le_last r.zero_le_last hne r.present
    exact ⟨v, (contains_between hbounds v).mp ((r.contains_iff_holds v).mpr hv)⟩
  · rintro ⟨v, hlower, hupper⟩
    have hordered : Bounds.reversed? ⟨some l, some u⟩ = none := by
      refine if_neg ?_
      unfold Anchor.lowerSecond Anchor.gap at hlower
      unfold Anchor.upperSecond Anchor.gap at hupper
      split at hlower <;> split at hupper <;> omega
    obtain ⟨r, hr, -⟩ := exists_of_bounds (b := ⟨some l, some u⟩) rfl hordered
      ((Limit.second_le_second _ _).mpr (hlower.trans hupper))
      ((Limit.second_le_second _ _).mpr ((Int.natCast_nonneg _).trans hupper))
    exact ⟨r, hr⟩

end

/-! ## Halves -/

section

variable {r l u : Range} {v w : Version}

theorem exists_intersection (hu : u.upper ≠ none) :
    (∃ o, l.intersection u = .ok o) ∧ ∀ t, l.intersection u = .ok (some t) → IsOverlap l u t := by
  rcases intersection_cases l u with ⟨-, heq⟩ | ⟨⟨t, heq, ht⟩, -⟩ | ⟨-, -, -, hnone, -⟩
  · rw [heq]
    exact ⟨⟨_, rfl⟩, nofun⟩
  · rw [heq]
    refine ⟨⟨_, rfl⟩, ?_⟩
    rintro t' h
    cases h
    exact ht
  · exact absurd hnone hu

variable (hr : r.toBounds = ⟨some ⟨first, strict⟩, some ⟨last, strict'⟩⟩)
  (hl : l.toBounds = ⟨some ⟨v, strict⟩, none⟩) (hu : u.toBounds = ⟨none, some ⟨w, strict'⟩⟩)

include hr hl hu

/-- Halves that start and end within the range meet within it. -/
theorem includes_of_halves (hv : first.seconds ≤ v.seconds) (hw : w.seconds ≤ last.seconds) :
    (∃ o, l.intersection u = .ok o) ∧
      (∀ x, l.contains x → u.contains x → r.contains x) ∧
      ∀ t, l.intersection u = .ok (some t) →
        r.includes t ∧ ∀ x, t.contains x ↔ l.contains x ∧ u.contains x := by
  have hfirst : r.first ≤ l.first := by
    rw [hr, hl]
    exact (Limit.second_le_second _ _).mpr (Int.add_le_add_right (Int.ofNat_le.mpr hv) _)
  have hlast : u.last ≤ r.last := by
    rw [hr, hu]
    exact (Limit.second_le_second _ _).mpr (Int.sub_le_sub_right (Int.ofNat_le.mpr hw) _)
  have hupper : u.upper ≠ none := by
    rw [hu]
    exact nofun
  obtain ⟨hok, hoverlap⟩ := exists_intersection (l := l) hupper
  refine ⟨hok, fun x hx hx' => ?_, fun t ht => ⟨?_, (hoverlap t ht).contains_iff⟩⟩
  · rw [contains_iff] at hx hx' ⊢
    exact ⟨hfirst.trans hx.1, hx'.2.trans hlast⟩
  · rw [includes_iff, (hoverlap t ht).first, (hoverlap t ht).last]
    exact ⟨hfirst.trans (le_max_left _ _), (min_le_right _ _).trans hlast⟩

/-- Halves with the edges of the range meet in the range. -/
theorem equals_of_halves (hv : v = first) (hw : w = last) :
    ∃ t, l.intersection u = .ok (some t) ∧ r.equals t := by
  subst hv hw
  have hle := r.first_le_last
  have hfirst : l.first = r.first := by
    rw [hr, hl]
    rfl
  have hlast : u.last = r.last := by
    rw [hr, hu]
    rfl
  have habove : l.last = .above := by
    rw [hl]
    rfl
  have hbelow : u.first = .below := by
    rw [hu]
    rfl
  have hmax : max l.first u.first = r.first := by
    rw [hbelow, hfirst]
    exact max_eq_left (Limit.below_le _)
  have hmin : min l.last u.last = r.last := by
    rw [habove, hlast]
    exact min_eq_right (Limit.le_above _)
  have hafter : ¬ l.startsAfter u := by
    rw [startsAfter_iff, hfirst, hlast]
    exact not_lt.mpr hle
  have hbefore : ¬ l.endsBefore u := by
    rw [endsBefore_iff, habove]
    exact Limit.not_above_lt _
  -- A range that ends at a version starts with one, so the overlap can be made.
  have hend : r.last = .second (Anchor.upperSecond ⟨w, strict'⟩) := by
    rw [hr]
    rfl
  have hearly : max l.first u.first < .second versionSeconds := by
    rw [hmax]
    refine lt_of_le_of_lt hle ?_
    rw [hend]
    exact Limit.second_lt_second_iff.mpr (Bounds.last_lt hend)
  obtain ⟨t, ht, hoverlap⟩ := intersection_of_early hafter hbefore hearly
  refine ⟨t, ht, (equals_iff r t).mpr ⟨?_, ?_⟩⟩
  · rw [hoverlap.first, hmax]
  · rw [hoverlap.last, hmin]

end

/-- A lower and an upper comparison make a range just when some version meets both, of the first version
of the one brief and the last one of the other, and then those versions lie in it. It has the overlap
of the two comparisons in it, and is that overlap where what is left out is a second alone. -/
theorem ofText_bounded (hp : p.Valid) (hs : Derives s.toList ⟨.brief a, []⟩)
    (hs' : Derives s'.toList ⟨.brief b, []⟩) (ha : a.Valid) (hb : b.Valid)
    (hsep : Separator us sep.toList) (strict strict' : Bool) :
    ∃ first last : Version, a.IsFirst first ∧ b.IsLast last ∧
      ((∃ r, ofText p (boundedText strict s sep strict' s') = .ok r) ↔
        ∃ v, (Comparison.lower strict).Holds v first ∧ (Comparison.upper strict').Holds v last) ∧
      (∀ r, ofText p (boundedText strict s sep strict' s') = .ok r → ∀ v, r.contains v ↔
        (Comparison.lower strict).Holds v first ∧ (Comparison.upper strict').Holds v last) ∧
      (∀ f, ofText p (boundedText strict s sep strict' s') = .error f → f.classOf = .logic) ∧
      ofText p (s ++ ".." ++ s') = ofText p (boundedText false s sep false s') ∧
      ∀ r l u, ofText p (boundedText strict s sep strict' s') = .ok r →
        ofText p ((Comparison.lower strict).symbol ++ s) = .ok l →
        ofText p ((Comparison.upper strict').symbol ++ s') = .ok u →
        (∃ o, l.intersection u = .ok o) ∧
        (∀ v, l.contains v → u.contains v → r.contains v) ∧
        (∀ t, l.intersection u = .ok (some t) →
          r.includes t ∧ ∀ v, t.contains v ↔ l.contains v ∧ u.contains v) ∧
        ((strict → a.precision = .second) → (strict' → b.precision = .second) →
          ∃ t, l.intersection u = .ok (some t) ∧ r.equals t) := by
  obtain ⟨first, last, hends, hfirst, hlast⟩ := ha.exists_ends
  obtain ⟨first', last', hends', hfirst', hlast'⟩ := hb.exists_ends
  have htext : ofText p (boundedText strict s sep strict' s') =
      ofBounds ⟨some ⟨first, strict⟩, some ⟨last', strict'⟩⟩ :=
    ofText_bounds hp hs hs' hsep hends hends'
  have hlower := ofText_lower hp hs hends (lowerSign_spelled strict)
  have hupper := ofText_upper hp hs' hends' (upperSign_spelled strict')
  refine ⟨first, last', hfirst, hlast', ?_, ?_, ?_, ofText_span hp hs hs' hsep, ?_⟩
  · rw [htext, exists_between_iff]
    simp only [lower_holds_iff, upper_holds_iff]
  · intro r hr v
    rw [htext, ofBounds_eq_ok_iff] at hr
    rw [contains_between hr, lower_holds_iff, upper_holds_iff]
  · intro f hf
    rw [htext] at hf
    exact ofBounds_error hf
  · intro r l u hr hl hu
    rw [htext, ofBounds_eq_ok_iff] at hr
    rw [hlower, ofBounds_eq_ok_iff] at hl
    rw [hupper, ofBounds_eq_ok_iff] at hu
    have hstart : first.seconds ≤ (if strict then last else first).seconds := by
      split
      · exact hfirst.le last hlast.covers
      · exact le_rfl
    have hend : (if strict' then first' else last').seconds ≤ last'.seconds := by
      split
      · exact hfirst'.le last' hlast'.covers
      · exact le_rfl
    obtain ⟨hok, hcontains, hincludes⟩ := includes_of_halves hr hl hu hstart hend
    refine ⟨hok, hcontains, hincludes, fun hexact hexact' => equals_of_halves hr hl hu ?_ ?_⟩
    · split
      · exact (Brief.ends_exact (hexact ‹_›) hends).symm
      · rfl
    · split
      · exact Brief.ends_exact (hexact' ‹_›) hends'
      · rfl

/-- There are versions strictly between the ends of one year, and the year itself is the overlap of its
two closed halves. -/
theorem ofText_bounded_year :
    Policy.plain.Valid ∧ Derives "1970".toList ⟨.brief (.year 1970), []⟩ ∧
      (Brief.year 1970).Valid ∧ Separator [] " ".toList ∧
      (∃ r, ofText .plain ">1970 <1970" = .ok r) ∧
      ∃ r l u t, ofText .plain ">=1970 <=1970" = .ok r ∧ ofText .plain ">=1970" = .ok l ∧
        ofText .plain "<=1970" = .ok u ∧ l.intersection u = .ok (some t) ∧ r.equals t := by
  have hvalid : (Brief.year 1970).Valid := ⟨by constructor <;> decide, by decide⟩
  have hspace : " ".toList = [' '] := by decide
  have hsep : Separator [] " ".toList := hspace ▸ .blank (.singleton rfl)
  have hzero : (Brief.year 1970).Covers ⟨0, by decide⟩ := by
    unfold Brief.Covers Brief.Reads
    decide
  have htwo : (Brief.year 1970).Covers ⟨2, by decide⟩ := by
    unfold Brief.Covers Brief.Reads
    decide
  refine ⟨Policy.plain_valid, derives_year, hvalid, hsep, ?_, ?_⟩
  · obtain ⟨_, _, hfirst, hlast, hopen, -⟩ :=
      ofText_bounded Policy.plain_valid derives_year derives_year hvalid hvalid hsep true true
    have hbefore := hfirst.le _ hzero
    have hafter := hlast.le _ htwo
    exact hopen.mpr ⟨⟨1, by decide⟩, Nat.lt_succ_of_le hbefore, hafter⟩
  · obtain ⟨_, _, hfirst, _, hclosed, -, -, -, hhalves⟩ :=
      ofText_bounded Policy.plain_valid derives_year derives_year hvalid hvalid hsep false false
    obtain ⟨r, hr⟩ := hclosed.mpr ⟨⟨0, by decide⟩, hfirst.le _ hzero, Nat.zero_le _⟩
    obtain ⟨_, _, hends, -⟩ := hvalid.exists_ends
    obtain ⟨l, hl, -⟩ := ofText_greaterOrEqual Policy.plain_valid derives_year hends
    obtain ⟨u, hu, -⟩ := ofText_lessOrEqual Policy.plain_valid derives_year hends
    obtain ⟨-, -, -, hexact⟩ := hhalves r l u hr hl hu
    obtain ⟨t, ht, heq⟩ := hexact nofun nofun
    exact ⟨r, l, u, t, hr, hl, hu, ht, heq⟩

end Range

end DateSpan
