import DateSpan.Proofs.Range.Reading

/-! Written versions and ranges. A written version is a brief of one second, and a written range is
a value with the anchors of the range, or with its version where it holds only one. -/

namespace DateSpan

open Calendar DateSpan.Expr Text

/-! ## Versions -/

/-- The brief of one second. -/
def Calendar.Civil.brief (c : Civil) : Brief :=
  .second c.year c.month c.day c.hour c.minute c.second

theorem Calendar.Civil.brief_firstCivil (c : Civil) : c.brief.firstCivil = c := rfl

theorem Calendar.Civil.brief_lastCivil (c : Civil) : c.brief.lastCivil = c := rfl

theorem Calendar.Civil.Valid.brief {c : Civil} (h : c.Valid) (hy : 1970 ≤ c.year) :
    c.brief.Valid :=
  ⟨h, hy⟩

theorem Calendar.Civil.Valid.briefText {c : Civil} (h : c.Valid) :
    BriefText c.brief (c.text ++ "Z").toList := by
  obtain ⟨hy, hmo, hd, hh, hmi, hs⟩ := h
  have hdays := daysInMonth_le c.year c.month
  have hyear : Places 4 c.year _ := numeral_zeroPadded (by decide) (by omega)
  have hmonth : Places 2 c.month _ := numeral_zeroPadded (by decide) (by omega)
  have hday : Places 2 c.day _ := numeral_zeroPadded (by decide) (by omega)
  have hhour : Places 2 c.hour _ := numeral_zeroPadded (by decide) (by omega)
  have hminute : Places 2 c.minute _ := numeral_zeroPadded (by decide) (by omega)
  have hsecond : Places 2 c.second _ := numeral_zeroPadded (by decide) (by omega)
  have htext := BriefText.second hyear hmonth hday hhour hminute hsecond (.inr rfl)
  simpa [Civil.text, Civil.brief] using htext

namespace Version

theorem text_eq (v : Version) : v.text = v.civil.text ++ "Z" := by
  simp only [text, textOfSeconds, civil, Instant.civil, instant]

theorem briefText (v : Version) : BriefText v.civil.brief v.text.toList := by
  rw [text_eq]
  exact v.civil_valid.briefText

/-- The brief of a version spans that version. -/
theorem ends_brief (v : Version) : v.civil.brief.ends false = .ok (.closed v, .closed v) := by
  have hvalid : v.civil.brief.Valid := v.civil_valid.brief v.civil_year
  obtain ⟨first, last, hends, hfirst, hlast⟩ := hvalid.ends_eq
  rw [Civil.brief_firstCivil] at hfirst
  rw [Civil.brief_lastCivil] at hlast
  rw [hends, eq_of_civil hfirst, eq_of_civil hlast]

end Version

/-! ## Words -/

namespace Range

/-- An operator and a version after it, whatever follows them. -/
theorem operator_words {t : Token} {op : String} (hop : t.Spelled op.toList) (v : Version)
    (rest : List Char) :
    Words [t, .brief v.civil.brief] [op.toList, v.text.toList] ((op ++ v.text).toList ++ rest)
      rest := by
  rw [String.toList_append, List.append_assoc]
  exact .front_cons hop (.front_cons (.brief v.briefText) .nil)

theorem lower_words (a : Anchor) (rest : List Char) :
    ∃ ls, Words [.lowerSign a.isOpen, .brief a.version.civil.brief] ls
      (((if a.isOpen then ">" else ">=") ++ a.version.text).toList ++ rest) rest := by
  cases a.isOpen with
  | true => exact ⟨_, operator_words .greater a.version rest⟩
  | false => exact ⟨_, operator_words .greaterOrEqual a.version rest⟩

theorem upper_words (a : Anchor) (rest : List Char) :
    ∃ ls, Words [.upperSign a.isOpen, .brief a.version.civil.brief] ls
      (((if a.isOpen then "<" else "<=") ++ a.version.text).toList ++ rest) rest := by
  cases a.isOpen with
  | true => exact ⟨_, operator_words .less a.version rest⟩
  | false => exact ⟨_, operator_words .lessOrEqual a.version rest⟩

/-- The text is that of a value without durations, whatever follows it, and the value has the
bounds. -/
def Writes (s : String) (v : Value) (b : Bounds) : Prop :=
  ∃ ts, v.Form ts ∧ (∀ a, .duration a ∉ ts) ∧ (∀ rest, ∃ ls, Words ts ls (s.toList ++ rest) rest) ∧
    (v.resolve false).outcome = .ok b

theorem writes_version (w : Version) :
    Writes w.text (.brief w.civil.brief) ⟨some (.closed w), some (.closed w)⟩ := by
  refine ⟨_, .brief, by simp, fun rest => ?_, Brief.resolve_outcome w.ends_brief⟩
  exact ⟨_, .front_cons (.brief w.briefText) .nil⟩

theorem writes_lower (a : Anchor) :
    Writes ((if a.isOpen then ">" else ">=") ++ a.version.text)
      (.lower ⟨a.isOpen, a.version.civil.brief⟩) ⟨some a, none⟩ := by
  refine ⟨_, .lower, by simp, lower_words a, ?_⟩
  rw [Value.resolve_lower a.version.ends_brief, ite_self]

theorem writes_upper (a : Anchor) :
    Writes ((if a.isOpen then "<" else "<=") ++ a.version.text)
      (.upper ⟨a.isOpen, a.version.civil.brief⟩) ⟨none, some a⟩ := by
  refine ⟨_, .upper, by simp, upper_words a, ?_⟩
  rw [Value.resolve_upper a.version.ends_brief, ite_self]

theorem writes_between (a b : Anchor) :
    Writes (((if a.isOpen then ">" else ">=") ++ a.version.text) ++ " " ++
        ((if b.isOpen then "<" else "<=") ++ b.version.text))
      (.between ⟨a.isOpen, a.version.civil.brief⟩ ⟨b.isOpen, b.version.civil.brief⟩)
      ⟨some a, some b⟩ := by
  refine ⟨_, .between, by simp, fun rest => ?_,
    Value.resolve_between a.version.ends_brief b.version.ends_brief _ _⟩
  obtain ⟨ms, hupper⟩ := upper_words b rest
  obtain ⟨ls, hlower⟩ := lower_words a (' ' :: (_ ++ rest))
  refine ⟨ls ++ ms, ?_⟩
  have h := hlower.append (hupper.blank rfl)
  rw [String.toList_append, String.toList_append, List.append_assoc, List.append_assoc]
  exact h

/-! ## Ranges -/

theorem text_of_singular {r : Range} (h : r.isSingular) {n : Int} (hn : r.first = .second n) :
    r.text = Version.textOfSeconds n.toNat := by
  simp only [text, h, hn]

theorem text_of_not_singular {r : Range} (h : r.isSingular = false) :
    r.text = " ".intercalate r.anchorTexts := by
  simp only [text, h]

/-- A singular range holds one version. -/
theorem exists_version {r : Range} (h : r.isSingular) :
    ∃ w : Version, r.first = .second w.seconds ∧ r.last = .second w.seconds := by
  have heq : r.first = r.last := by simpa [isSingular] using h
  cases hfirst : r.first with
  | below => exact absurd (heq.symm.trans hfirst) r.last_ne_below
  | above => exact absurd hfirst r.first_ne_above
  | second n =>
    obtain ⟨hzero, -⟩ := Bounds.first_bounds hfirst
    have hlast := heq.symm.trans hfirst
    have hlt := Bounds.last_lt hlast
    obtain ⟨m, rfl⟩ := Int.eq_ofNat_of_zero_le hzero
    exact ⟨⟨m, by omega⟩, rfl, hlast⟩

/-- The range of one version. -/
theorem exists_singleton (w : Version) :
    ∃ r : Range, r.toBounds = ⟨some (.closed w), some (.closed w)⟩ ∧
      r.first = .second w.seconds ∧ r.last = .second w.seconds := by
  obtain ⟨r, hr, -⟩ := exists_between (Nat.le_refl w.seconds)
  have hbounds : r.toBounds = ⟨some (.closed w), some (.closed w)⟩ := ofBounds_eq_ok_iff.mp hr
  refine ⟨r, hbounds, ?_, ?_⟩
  · rw [hbounds]
    exact congrArg Limit.second (Anchor.lowerSecond_closed w)
  · rw [hbounds]
    exact congrArg Limit.second (Anchor.upperSecond_closed w)

theorem writes_text (r : Range) :
    ∃ v r', Writes r.text v r'.toBounds ∧ r'.equals r ∧ r'.text = r.text ∧
      (r.isSingular = false → r' = r) := by
  cases hsing : r.isSingular with
  | true =>
    obtain ⟨w, hfirst, hlast⟩ := exists_version hsing
    obtain ⟨r', hbounds, hfirst', hlast'⟩ := exists_singleton w
    have hsing' : r'.isSingular := by simp [isSingular, hfirst', hlast']
    refine ⟨.brief w.civil.brief, r', ?_, ?_, ?_, nofun⟩
    · rw [text_of_singular hsing hfirst, hbounds]
      exact writes_version w
    · rw [equals_iff, hfirst, hlast]
      exact ⟨hfirst', hlast'⟩
    · rw [text_of_singular hsing hfirst, text_of_singular hsing' hfirst']
  | false =>
    have hequals : r.equals r := (equals_iff r r).mpr ⟨rfl, rfl⟩
    have htext := text_of_not_singular hsing
    suffices ∃ v, Writes r.text v r.toBounds by
      obtain ⟨v, hv⟩ := this
      exact ⟨v, r, hv, hequals, rfl, fun _ => rfl⟩
    rw [htext, anchorTexts]
    obtain ⟨⟨lower, upper⟩, hpresent, -, -⟩ := r
    cases lower with
    | none =>
      cases upper with
      | none => cases hpresent
      | some b => exact ⟨_, writes_upper b⟩
    | some a =>
      cases upper with
      | none => exact ⟨_, writes_lower a⟩
      | some b => exact ⟨_, writes_between a b⟩

end Range

end DateSpan
