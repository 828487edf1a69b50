import DateSpan.Proofs.Range.Reading
import DateSpan.Proofs.Version.Faults

/-! Faults of written values. A value that was read from a text has briefs of a few digits, so all that
can fail in it are dates that do not occur, moments outside the calendar, a duration that is no
range, and an amount that is too large. -/

namespace DateSpan.Expr

open Calendar Text

/-! ## Written briefs -/

/-- The fields have four digits at most. -/
def Brief.Small (b : Brief) : Prop :=
  ∀ n ∈ b.fields, n ≤ 9999

theorem Places.small {width n : Nat} {cs : List Char} (h : Places width n cs) (hwidth : width ≤ 4) :
    n ≤ 9999 := by
  have hlt : n < Nat.pow 10 4 := h.1.lt_of_length_le (h.2 ▸ hwidth)
  exact Nat.le_of_lt_succ hlt

theorem BriefText.small {b : Brief} {cs : List Char} (h : BriefText b cs) : b.Small := by
  have hfour : ∀ {n cs}, Places 4 n cs → n ≤ 9999 := fun h => h.small (Nat.le_refl 4)
  have htwo : ∀ {n cs}, Places 2 n cs → n ≤ 9999 := fun h => h.small (by decide)
  cases h with
  | year hy => simpa [Brief.Small, Brief.fields] using hfour hy
  | month hy hmo => simpa [Brief.Small, Brief.fields] using ⟨hfour hy, htwo hmo⟩
  | day hy hmo hd => simpa [Brief.Small, Brief.fields] using ⟨hfour hy, htwo hmo, htwo hd⟩
  | hour hy hmo hd hh =>
    simpa [Brief.Small, Brief.fields] using ⟨hfour hy, htwo hmo, htwo hd, htwo hh⟩
  | minute hy hmo hd hh hmi =>
    simpa [Brief.Small, Brief.fields] using ⟨hfour hy, htwo hmo, htwo hd, htwo hh, htwo hmi⟩
  | second hy hmo hd hh hmi hs | compact hy hmo hd hh hmi hs =>
    simpa [Brief.Small, Brief.fields] using
      ⟨hfour hy, htwo hmo, htwo hd, htwo hh, htwo hmi, htwo hs⟩

theorem Brief.Small.component {b : Brief} (h : b.Small) (x : Component) :
    b.firstCivil.component x ≤ 9999 := by
  cases b <;> simp only [Brief.Small, Brief.fields, List.forall_mem_cons] at h <;> cases x <;>
    simp only [Brief.firstCivil, Civil.component] <;> omega

/-! ## Written durations -/

/-- The counts have no more digits than can be shown. -/
def Amounts.Small (a : Amounts) : Prop :=
  ∀ n ∈ a.counts, isWritable (n.getD 0) = true

theorem CountText.small {x : Char} {n : Option Nat} {cs : List Char} (h : CountText x n cs)
    (hcs : ¬ LongNumber cs) : isWritable (n.getD 0) = true := by
  cases h with
  | absent => exact Version.isWritable_of_lt_floatLimit Version.floatLimit_pos
  | @written n ds _ hn =>
    have hdigits : ds.length ≤ maxDigits := by
      by_contra hlong
      have hpiece : ds <:+: ds ++ [x] := (List.prefix_append ds [x]).isInfix
      exact hcs ⟨ds, hpiece, fun _ => hn.isSome_digit?, Nat.not_le.mp hlong⟩
    exact decide_eq_true (hn.lt_of_length_le hdigits)

theorem TimeText.small {h m s : Option Nat} {cs : List Char} (htime : TimeText h m s cs)
    (hcs : ¬ LongNumber cs) : ∀ n ∈ [h, m, s], isWritable (n.getD 0) = true := by
  cases htime with
  | absent =>
    have habsent := (CountText.absent : CountText 'H' none []).small not_longNumber_nil
    simp only [List.forall_mem_cons]
    exact ⟨habsent, habsent, habsent, nofun⟩
  | @written _ _ _ hs ms ss hh hm hsec =>
    have hpart : ∀ {part : List Char}, part <:+: hs ++ (ms ++ ss) → ¬ LongNumber part :=
      fun hpiece hlong => hcs (hlong.mono (hpiece.trans (List.suffix_cons _ _).isInfix))
    simp only [List.forall_mem_cons]
    refine ⟨hh.small (hpart ?_), hm.small (hpart ?_), hsec.small (hpart ?_), nofun⟩
    · exact (List.prefix_append ..).isInfix
    · exact ((List.prefix_append ..).isInfix).trans (List.suffix_append ..).isInfix
    · exact ((List.suffix_append ..).isInfix).trans (List.suffix_append ..).isInfix

theorem DurationText.small {a : Amounts} {cs : List Char} (h : DurationText a cs)
    (hcs : ¬ LongNumber cs) : a.Small := by
  cases h with
  | @written y mo d h m s ys mos ds ts hy hmo hd htime _ =>
    have hpart : ∀ {part : List Char}, part <:+: ys ++ (mos ++ (ds ++ ts)) → ¬ LongNumber part :=
      fun hpiece hlong => hcs (hlong.mono (hpiece.trans (List.suffix_cons _ _).isInfix))
    have hmonths : mos ++ (ds ++ ts) <:+: ys ++ (mos ++ (ds ++ ts)) := (List.suffix_append ..).isInfix
    have hdays : ds ++ ts <:+: ys ++ (mos ++ (ds ++ ts)) :=
      ((List.suffix_append ..).isInfix).trans hmonths
    have htimes := htime.small (hpart ((List.suffix_append ..).isInfix.trans hdays))
    simp only [List.forall_mem_cons] at htimes
    simp only [Amounts.Small, Amounts.counts, List.forall_mem_cons]
    refine ⟨hy.small (hpart ?_), hmo.small (hpart ?_), hd.small (hpart ?_), htimes⟩
    · exact (List.prefix_append ..).isInfix
    · exact ((List.prefix_append ..).isInfix).trans hmonths
    · exact ((List.prefix_append ..).isInfix).trans hdays

theorem Amounts.Small.amount {a : Amounts} (h : a.Small) (c : Component) :
    isWritable ((Duration.ofAmounts a).amount c) := by
  simp only [Small, counts, List.forall_mem_cons] at h
  cases c <;> simp only [Duration.amount, Duration.ofAmounts, h]

/-- A duration that was read moves by no count that cannot be shown. -/
theorem Amounts.Small.not_reaches {a : Amounts} (h : a.Small) {sign : Int} {m : Moment} :
    ¬ Version.Reaches Version.IsUnwritable sign (Duration.ofAmounts a).amounts m := by
  intro hreach
  obtain ⟨unit, n, hn, hdigits⟩ := hreach.mem
  obtain ⟨x, -, hx⟩ := List.mem_map.mp hn
  cases hx
  exact Bool.false_ne_true (hdigits.2.symm.trans (h.amount unit))

/-! ## Written values -/

/-- The briefs of a value. -/
def Value.briefs : Value → List Brief
  | .brief b => [b]
  | .duration _ => []
  | .lower b | .upper b => [b.edge]
  | .between l u => [l.edge, u.edge]
  | .relative base _ _ => [base]

/-- The durations of a value. -/
def Value.extents : Value → List Amounts
  | .duration a | .relative _ _ a => [a]
  | _ => []

/-- The words of a value that have digits. -/
def Value.numbers (v : Value) : List Token :=
  v.briefs.map .brief ++ v.extents.map .duration

theorem Value.Form.numbers_subset {v : Value} {ts : List Token} (h : v.Form ts) :
    v.numbers ⊆ ts := by
  cases h <;> simp [Value.numbers, Value.briefs, Value.extents]

theorem Values.Form.numbers_subset {vs : List Value} {ts : List Token} (h : Values.Form vs ts)
    {v : Value} (hv : v ∈ vs) : v.numbers ⊆ ts := by
  induction h with
  | single hform =>
    cases List.mem_singleton.mp hv
    exact hform.numbers_subset
  | cons hform _ ih =>
    rcases List.mem_cons.mp hv with rfl | hv
    · exact List.Subset.trans hform.numbers_subset (List.subset_append_left ..)
    · exact List.Subset.trans (ih hv)
        (List.Subset.trans (List.subset_cons_self ..) (List.subset_append_right ..))

theorem Words.spelling {ts : List Token} {ls : List (List Char)} {cs rest : List Char}
    (h : Words ts ls cs rest) {t : Token} (ht : t ∈ ts) : ∃ l ∈ ls, t.Spelled l := by
  induction h with
  | nil => cases ht
  | cons _ hs _ ih =>
    rcases List.mem_cons.mp ht with rfl | ht
    · exact ⟨_, List.mem_cons_self .., hs⟩
    · obtain ⟨l, hl, hspelled⟩ := ih ht
      exact ⟨l, List.mem_cons_of_mem _ hl, hspelled⟩

/-- All briefs of a value have fields of a few digits, and its durations counts that can be shown. -/
structure Value.Small (v : Value) : Prop where
  briefs : ∀ b ∈ v.briefs, b.Small
  extents : ∀ a ∈ v.extents, a.Small

/-- What is read from a text has briefs of a few digits and counts that can be shown. -/
theorem read_small {s : String} {e : Expression} (h : read s = .ok e) {v : Value}
    (hv : v ∈ e.values) : v.Small := by
  obtain ⟨ts, ls, ⟨⟨rest, hwords, -⟩, hform⟩, hshort⟩ := read_eq_ok_iff.mp h
  have hnumbers := hform.numbers_subset hv
  constructor
  · intro b hb
    have ht := hnumbers (List.mem_append_left _ (List.mem_map_of_mem hb))
    obtain ⟨l, -, hspelled⟩ := hwords.spelling ht
    cases hspelled with
    | brief htext => exact htext.small
  · intro a ha
    have ht := hnumbers (List.mem_append_right _ (List.mem_map_of_mem ha))
    obtain ⟨l, hl, hspelled⟩ := hwords.spelling ht
    cases hspelled with
    | duration htext => exact htext.small (hshort l hl)

/-! ## Spans -/

/-- A written brief is a value of the calendar, or is refused for what it says. -/
theorem Brief.Small.valid_or_error {b : Brief} (h : b.Small) :
    b.Valid ∨ ∃ f, b.ends false = .error f ∧ f.classOf = .logic := by
  rcases Version.ofFields_cases h.component with ⟨hoccurs, hepoch⟩ | ⟨f, hf, hclass⟩
  · exact .inl ⟨hoccurs, hepoch⟩
  · refine .inr ⟨f, ?_, hclass⟩
    rw [Brief.ends, Brief.start_eq, hf]
    rfl

theorem Brief.seconds_le {b : Brief} {first last : Version} (hfirst : first.civil = b.firstCivil)
    (hlast : last.civil = b.lastCivil) : first.seconds ≤ last.seconds := by
  have hcovers : b.Covers first := by
    rw [Brief.Covers, hfirst]
    exact b.reads_firstCivil
  exact ((Brief.covers_iff hfirst hlast first).mp hcovers).2

/-! ## Values -/

/-- What fails after a brief is resolved, fails for what the brief says or has its ends. -/
theorem Brief.Small.resolve_error {α : Type} {b : Brief} (hb : b.Small)
    {k : Bounds → Except Fault α} {f : Fault} (h : (b.resolve false).outcome >>= k = .error f) :
    f.classOf = .logic ∨ ∃ first last : Version, b.ends false = .ok (.closed first, .closed last) ∧
      k ⟨some (.closed first), some (.closed last)⟩ = .error f := by
  rcases hb.valid_or_error with hvalid | ⟨f', hf', hclass⟩
  · obtain ⟨first, last, hends, -⟩ := hvalid.ends_eq
    rw [resolve_outcome hends] at h
    exact .inr ⟨first, last, hends, h⟩
  · rw [resolve, Traced.outcome_bind, Traced.outcome_lift, hf'] at h
    cases h
    exact .inl hclass

theorem outcome_after (lower : Option Anchor) (edge : Anchor) (d : Duration) :
    (relativeRule .after ⟨lower, some edge⟩ d).outcome =
      (edge.upperEdge >>= (·.addDuration d)) >>= fun v => .ok ⟨lower, some (.closed v)⟩ := by
  simp only [relativeRule, required, Traced.outcome_bind, Traced.outcome_pure, Traced.outcome_lift,
    Traced.outcome_note]
  rfl

theorem outcome_before (edge : Anchor) (upper : Option Anchor) (d : Duration) :
    (relativeRule .before ⟨some edge, upper⟩ d).outcome =
      (edge.lowerEdge >>= (·.minusDuration d)) >>= fun v => .ok ⟨some (.closed v), upper⟩ := by
  simp only [relativeRule, required, Traced.outcome_bind, Traced.outcome_pure, Traced.outcome_lift,
    Traced.outcome_note]
  rfl

theorem relativeRule_after (first last : Version) (d : Duration) :
    (relativeRule .after ⟨some (.closed first), some (.closed last)⟩ d).outcome =
      (last.addDuration d).map fun v => ⟨some (.closed first), some (.closed v)⟩ := by
  rw [outcome_after]
  change (last.addDuration d >>= fun v =>
    .ok ⟨some (.closed first), some (.closed v)⟩ : Except Fault Bounds) = _
  cases last.addDuration d <;> rfl

theorem relativeRule_before (first last : Version) (d : Duration) :
    (relativeRule .before ⟨some (.closed first), some (.closed last)⟩ d).outcome =
      (first.minusDuration d).map fun v => ⟨some (.closed v), some (.closed last)⟩ := by
  rw [outcome_before]
  change (first.minusDuration d >>= fun v =>
    .ok ⟨some (.closed v), some (.closed last)⟩ : Except Fault Bounds) = _
  cases first.minusDuration d <;> rfl

theorem Value.resolve_relative {base : Brief} {first last : Version}
    (h : base.ends false = .ok (.closed first, .closed last)) (side : Side) (extent : Amounts) :
    (Value.resolve false (.relative base side extent)).outcome =
      (relativeRule side ⟨some (.closed first), some (.closed last)⟩
        (.ofAmounts extent)).outcome := by
  rw [Value.resolve, Traced.outcome_bind, Brief.resolve_outcome h]
  rfl

/-- A duration leads out of its brief to an amount that is too large. -/
def Value.Overflows : Value → Prop
  | .relative base side extent => ∃ first last, base.ends false = .ok (first, last) ∧
    match side with
    | .after => Version.Overflows 1 (Duration.ofAmounts extent).amounts last.version.moment
    | .before => Version.Overflows (-1) (Duration.ofAmounts extent).amounts first.version.moment
  | _ => False

/-- What fails in a written value: what its briefs say, where its duration leads, or that it is a
duration alone. -/
theorem Value.resolve_error {v : Value} (hv : v.Small) {f : Fault}
    (h : (v.resolve false).outcome = .error f) :
    f.classOf = .logic ∨ (∃ a, v = .duration a ∧ f = .notARange a.node) ∨
      f = .tooLarge ∧ v.Overflows := by
  cases v with
  | brief b =>
    have hb : b.Small := hv.briefs b (List.mem_singleton_self b)
    have hbind : (b.resolve false).outcome >>= Except.ok = .error f := (bind_pure _).trans h
    rcases hb.resolve_error hbind with hlogic | ⟨first, last, -, hdone⟩
    · exact .inl hlogic
    · cases hdone
  | duration a =>
    cases h
    exact .inr (.inl ⟨a, rfl, rfl⟩)
  | lower b =>
    have hb : b.edge.Small := hv.briefs b.edge (List.mem_singleton_self _)
    rw [Value.resolve, Traced.outcome_bind] at h
    rcases hb.resolve_error h with hlogic | ⟨first, last, -, hrule⟩
    · exact .inl hlogic
    · cases hstrict : b.strict <;> rw [hstrict] at hrule <;> cases hrule
  | upper b =>
    have hb : b.edge.Small := hv.briefs b.edge (List.mem_singleton_self _)
    rw [Value.resolve, Traced.outcome_bind] at h
    rcases hb.resolve_error h with hlogic | ⟨first, last, -, hrule⟩
    · exact .inl hlogic
    · cases hstrict : b.strict <;> rw [hstrict] at hrule <;> cases hrule
  | between l u =>
    have hl : l.edge.Small := hv.briefs l.edge (List.mem_cons_self ..)
    have hu : u.edge.Small := hv.briefs u.edge (List.mem_cons_of_mem _ (List.mem_singleton_self _))
    simp only [Value.resolve, Traced.outcome_bind] at h
    rcases hl.resolve_error h with hlogic | ⟨first, last, -, hmore⟩
    · exact .inl hlogic
    · rcases hu.resolve_error hmore with hlogic | ⟨first', last', -, hrule⟩
      · exact .inl hlogic
      · cases hrule
  | relative base side extent =>
    have hbase : base.Small := hv.briefs base (List.mem_singleton_self base)
    have hextent : extent.Small := hv.extents extent (List.mem_singleton_self extent)
    rw [Value.resolve, Traced.outcome_bind] at h
    rcases hbase.resolve_error h with hlogic | ⟨first, last, hends, hrule⟩
    · exact .inl hlogic
    · cases side with
      | after =>
        rw [relativeRule_after] at hrule
        rcases Version.addDuration_error (map_eq_error hrule) with
          hlogic | ⟨hlarge, hover⟩ | ⟨-, hreach⟩
        · exact .inl hlogic
        · exact .inr (.inr ⟨hlarge, _, _, hends, hover⟩)
        · exact absurd hreach hextent.not_reaches
      | before =>
        rw [relativeRule_before] at hrule
        rcases Version.minusDuration_error (map_eq_error hrule) with
          hlogic | ⟨hlarge, hover⟩ | ⟨-, hreach⟩
        · exact .inl hlogic
        · exact .inr (.inr ⟨hlarge, _, _, hends, hover⟩)
        · exact absurd hreach hextent.not_reaches

theorem Value.Overflows.resolve {v : Value} (hv : v.Small) (h : v.Overflows) :
    (v.resolve false).outcome = .error .tooLarge := by
  cases v with
  | relative base side extent =>
    obtain ⟨first, last, hends, hover⟩ := h
    have hbase : base.Small := hv.briefs base (List.mem_singleton_self base)
    rcases hbase.valid_or_error with hvalid | ⟨f, hfault, -⟩
    · obtain ⟨first', last', hends', -⟩ := hvalid.ends_eq
      cases hends.symm.trans hends'
      rw [resolve_relative hends']
      cases side with
      | after =>
        have hadd : last'.addDuration (.ofAmounts extent) = .error .tooLarge := hover.addDuration
        rw [relativeRule_after, hadd]
        rfl
      | before =>
        have hminus : first'.minusDuration (.ofAmounts extent) = .error .tooLarge :=
          hover.minusDuration
        rw [relativeRule_before, hminus]
        rfl
    · cases hends.symm.trans hfault
  | _ => cases h

end DateSpan.Expr
