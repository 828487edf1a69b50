import DateSpan.Proofs.Expr.Faults
import DateSpan.Proofs.Expr.Spans

/-! The two modes of resolution. With `minimum` a unit ends at the start of the next one, open; else it
ends at its last second, closed. Rules keep to the seconds at which bounds start and end, so in both
modes a value bounds the same versions. -/

namespace DateSpan

open Calendar DateSpan.Expr

/-! ## Traces -/

namespace Expr.Traced

variable {α β : Type} {t : Traced α} {f : α → Traced β} {switch : Except Fault Bool}

theorem bind_pure_eq (t : Traced α) : t.bind pure = t := by
  obtain ⟨completed, outcome⟩ := t
  cases outcome with
  | error e => rfl
  | ok a => exact congrArg (Traced.mk · (.ok a)) (List.append_nil completed)

theorem bind_bind_eq {γ : Type} (t : Traced α) (f : α → Traced β) (g : β → Traced γ) :
    (t.bind f).bind g = t.bind fun a => (f a).bind g := by
  obtain ⟨completed, outcome⟩ := t
  cases outcome with
  | error e => rfl
  | ok a =>
    simp only [Traced.bind]
    cases (f a).outcome with
    | error e => rfl
    | ok b => exact congrArg (Traced.mk · _) (List.append_assoc ..)

instance : LawfulMonad Traced :=
  LawfulMonad.mk' Traced bind_pure_eq (fun _ _ => rfl) bind_bind_eq

theorem lift_bind (x : Except Fault α) (f : α → Except Fault β) :
    lift (x >>= f) = lift x >>= fun a => lift (f a) := by
  cases x <;> rfl

/-- What succeeds has completed a node. -/
def Noted (t : Traced α) : Prop :=
  ∀ a, t.outcome = .ok a → t.completed ≠ []

theorem noted_note (label : String) (b : Bounds) : (note label b).Noted :=
  fun _ _ => List.cons_ne_nil _ _

theorem noted_fail (f : Fault) : (fail f : Traced α).Noted := nofun

theorem Noted.bind (h : ∀ a, (f a).Noted) : (t >>= f).Noted := by
  obtain ⟨completed, outcome⟩ := t
  intro b hb
  cases outcome with
  | error e => cases hb
  | ok a => exact List.append_ne_nil_of_right_ne_nil completed (h a b hb)

theorem under_eq_ok_iff (h : t.Noted) {a : α} :
    t.under switch = .ok a ↔ (∃ w, switch = .ok w) ∧ t.outcome = .ok a := by
  cases switch with
  | ok w =>
    rw [under_ok]
    exact ⟨fun ha => ⟨⟨w, rfl⟩, ha⟩, And.right⟩
  | error f =>
    refine iff_of_false ?_ (fun ha => by cases ha.1.choose_spec)
    intro ha
    unfold under at ha
    split at ha
    · cases ha
    · rename_i hnone
      cases hcompleted : t.completed with
      | nil => exact h a ha hcompleted
      | cons c cs => exact hnone f c cs rfl hcompleted

end Expr.Traced

/-! ## Trees of values -/

namespace Expr

theorem Brief.ofComponents_fields (room : Room) (b : Brief) :
    Version.ofComponents room (b.fields.map fun (n : Nat) => Datum.int n) = b.start := by
  cases b with
  | second y mo d h mi s => exact Version.ofComponents_ints room y mo d h mi s
  | minute y mo d h mi => exact Version.ofComponents_ints room y mo d h mi 0
  | hour y mo d h => exact Version.ofComponents_ints room y mo d h 0 0
  | day y mo d => exact Version.ofComponents_ints room y mo d 0 0 0
  | month y mo => exact Version.ofComponents_ints room y mo 1 0 0 0
  | year y => exact Version.ofComponents_ints room y 1 1 0 0 0

theorem Brief.resolveWith_node (room : Room) (minimum unwrap : Bool) (b : Brief) :
    b.node.resolveWith room minimum unwrap = b.resolve minimum := by
  rw [node, Datum.resolveWith, b.ofComponents_fields room, resolve, ends, Traced.lift_bind, bind_assoc]

/-- A count as it stands in a node. -/
def Amounts.countNode (n : Option Nat) : Datum :=
  n.elim Datum.null fun (n : Nat) => Datum.int n

theorem Amounts.countOf_countNode (room : Room) (unit : Component) (n : Option Nat) :
    Duration.countOf room unit (some (countNode n)) = .ok (n.getD 0) := by
  cases n with
  | none => rfl
  | some n =>
    simp only [countNode, Option.elim, Duration.countOf]
    rw [if_neg (Int.not_lt.mpr (Int.natCast_nonneg n))]
    rfl

theorem Amounts.ofNode_node (room : Room) (a : Amounts) :
    Duration.ofNode room a.node = .ok (.ofAmounts a) := by
  have hcounts : Duration.ofNode room a.node = (do
      let years ← Duration.countOf room .year (some (countNode a.years))
      let months ← Duration.countOf room .month (some (countNode a.months))
      let days ← Duration.countOf room .day (some (countNode a.days))
      let hours ← Duration.countOf room .hour (some (countNode a.hours))
      let minutes ← Duration.countOf room .minute (some (countNode a.minutes))
      let seconds ← Duration.countOf room .second (some (countNode a.seconds))
      return ⟨years, months, days, hours, minutes, seconds⟩) := rfl
  simp only [hcounts, countOf_countNode]
  rfl

@[simp] theorem Comparison.isStrict_lower (strict : Bool) : (lower strict).isStrict = strict := by
  cases strict <;> rfl

@[simp] theorem Comparison.isStrict_upper (strict : Bool) : (upper strict).isStrict = strict := by
  cases strict <;> rfl

/-- A value and its tree are resolved alike. -/
theorem Value.resolve_node (room : Room) (minimum : Bool) (v : Value) :
    v.node.resolve room minimum = v.resolve minimum := by
  unfold Datum.resolve
  cases v with
  | brief b => exact b.resolveWith_node room minimum true
  | duration a => rfl
  | lower b =>
    rw [node, Bound.lowerNode, Datum.resolveWith, Brief.resolveWith_node, Comparison.isStrict_lower]
    rfl
  | upper b =>
    rw [node, Bound.upperNode, Datum.resolveWith, Brief.resolveWith_node, Comparison.isStrict_upper]
    rfl
  | between l u =>
    rw [node, Bound.lowerNode, Bound.upperNode, Datum.resolveWith]
    simp only [Brief.resolveWith_node, Comparison.isStrict_lower, Comparison.isStrict_upper, pure_bind]
    rfl
  | relative base side extent =>
    rw [node, Datum.resolveWith, Brief.resolveWith_node, Amounts.ofNode_node]
    rfl

end Expr

/-! ## Rules -/

/-- The bounds start and end at the same seconds, whichever their anchors. -/
structure Bounds.Alike (b b' : Bounds) : Prop where
  first : b.first = b'.first
  last : b.last = b'.last

namespace Bounds

variable {b b' : Bounds}

theorem Alike.symm (h : b.Alike b') : b'.Alike b :=
  ⟨h.first.symm, h.last.symm⟩

theorem Alike.lower_eq_none_iff (h : b.Alike b') : b.lower = none ↔ b'.lower = none := by
  rw [← first_eq_below_iff, ← first_eq_below_iff, h.first]

theorem Alike.upper_eq_none_iff (h : b.Alike b') : b.upper = none ↔ b'.upper = none := by
  rw [← last_eq_above_iff, ← last_eq_above_iff, h.last]

theorem Alike.holds_iff (h : b.Alike b') (v : Version) : b.Holds v ↔ b'.Holds v := by
  rw [Holds, Holds, h.first, h.last]

theorem Alike.lower (h : b.Alike b') {a : Anchor} (ha : b.lower = some a) :
    ∃ a', b'.lower = some a' ∧ a.lowerSecond = a'.lowerSecond := by
  cases hlower : b'.lower with
  | none => cases ha.symm.trans (h.lower_eq_none_iff.mpr hlower)
  | some a' =>
    have hfirst := h.first
    simp only [Bounds.first, ha, hlower] at hfirst
    exact ⟨a', rfl, Limit.second.inj hfirst⟩

theorem Alike.upper (h : b.Alike b') {a : Anchor} (ha : b.upper = some a) :
    ∃ a', b'.upper = some a' ∧ a.upperSecond = a'.upperSecond := by
  cases hupper : b'.upper with
  | none => cases ha.symm.trans (h.upper_eq_none_iff.mpr hupper)
  | some a' =>
    have hlast := h.last
    simp only [Bounds.last, ha, hupper] at hlast
    exact ⟨a', rfl, Limit.second.inj hlast⟩

end Bounds

namespace Expr

/-- A duration after a value starts from the last second of the value. -/
theorem relativeRule_after_eq_ok_iff {limits b : Bounds} {d : Duration} :
    (relativeRule .after limits d).outcome = .ok b ↔ ∃ edge, ∃ last w : Version, limits.upper = some edge ∧
      (last.seconds : Int) = edge.upperSecond ∧ last.addDuration d = .ok w ∧
      b = ⟨limits.lower, some (.closed w)⟩ := by
  obtain ⟨lower, upper⟩ := limits
  cases upper with
  | none => exact ⟨nofun, fun ⟨_, _, _, h, _⟩ => nomatch h⟩
  | some edge =>
    rw [outcome_after]
    constructor
    · intro h
      obtain ⟨w, hmove, hdone⟩ := bind_eq_ok h
      obtain ⟨last, hlast, hw⟩ := bind_eq_ok hmove
      cases hdone
      exact ⟨edge, last, w, rfl, Anchor.upperEdge_eq_ok_iff.mp hlast, hw, rfl⟩
    · rintro ⟨_, last, w, hedge, hlast, hw, rfl⟩
      cases hedge
      rw [Anchor.upperEdge_eq_ok_iff.mpr hlast]
      change last.addDuration d >>= _ = _
      rw [hw]
      rfl

/-- A duration before a value starts from the first second of the value. -/
theorem relativeRule_before_eq_ok_iff {limits b : Bounds} {d : Duration} :
    (relativeRule .before limits d).outcome = .ok b ↔ ∃ edge, ∃ first w : Version, limits.lower = some edge ∧
      (first.seconds : Int) = edge.lowerSecond ∧ first.minusDuration d = .ok w ∧
      b = ⟨some (.closed w), limits.upper⟩ := by
  obtain ⟨lower, upper⟩ := limits
  cases lower with
  | none => exact ⟨nofun, fun ⟨_, _, _, h, _⟩ => nomatch h⟩
  | some edge =>
    rw [outcome_before]
    constructor
    · intro h
      obtain ⟨w, hmove, hdone⟩ := bind_eq_ok h
      obtain ⟨first, hfirst, hw⟩ := bind_eq_ok hmove
      cases hdone
      exact ⟨edge, first, w, rfl, Anchor.lowerEdge_eq_ok_iff.mp hfirst, hw, rfl⟩
    · rintro ⟨_, first, w, hedge, hfirst, hw, rfl⟩
      cases hedge
      rw [Anchor.lowerEdge_eq_ok_iff.mpr hfirst]
      change first.minusDuration d >>= _ = _
      rw [hw]
      rfl

/-- The rule gives alike bounds for alike ones. -/
def Respects (rule : Bounds → Traced Bounds) : Prop :=
  ∀ ⦃limits limits' : Bounds⦄, limits.Alike limits' → ∀ ⦃b⦄, (rule limits).outcome = .ok b →
    ∃ b', (rule limits').outcome = .ok b' ∧ b.Alike b'

theorem respects_pure : Respects pure := by
  intro limits limits' halike b hb
  cases hb
  exact ⟨limits', rfl, halike⟩

theorem respects_lowerRule (strict : Bool) : Respects (lowerRule strict) := by
  rintro ⟨lower, upper⟩ ⟨lower', upper'⟩ halike b hb
  cases strict with
  | false =>
    cases hb
    exact ⟨_, rfl, halike.first, rfl⟩
  | true =>
    cases upper with
    | none => cases hb
    | some a =>
      cases hb
      obtain ⟨a', rfl, hsecond⟩ := halike.upper rfl
      refine ⟨_, rfl, ?_, rfl⟩
      change Limit.second a.flipped.lowerSecond = .second a'.flipped.lowerSecond
      rw [Anchor.lowerSecond_flipped, Anchor.lowerSecond_flipped, hsecond]

theorem respects_upperRule (strict : Bool) : Respects (upperRule strict) := by
  rintro ⟨lower, upper⟩ ⟨lower', upper'⟩ halike b hb
  cases strict with
  | false =>
    cases hb
    exact ⟨_, rfl, rfl, halike.last⟩
  | true =>
    cases lower with
    | none => cases hb
    | some a =>
      cases hb
      obtain ⟨a', rfl, hsecond⟩ := halike.lower rfl
      refine ⟨_, rfl, rfl, ?_⟩
      change Limit.second a.flipped.upperSecond = .second a'.flipped.upperSecond
      rw [Anchor.upperSecond_flipped, Anchor.upperSecond_flipped, hsecond]

theorem respects_relativeRule (side : Side) (d : Duration) :
    Respects fun limits => relativeRule side limits d := by
  intro limits limits' halike b hb
  cases side with
  | after =>
    obtain ⟨edge, last, w, hedge, hlast, hw, rfl⟩ := relativeRule_after_eq_ok_iff.mp hb
    obtain ⟨edge', hedge', hsecond⟩ := halike.upper hedge
    exact ⟨_, relativeRule_after_eq_ok_iff.mpr
      ⟨edge', last, w, hedge', hlast.trans hsecond, hw, rfl⟩, halike.first, rfl⟩
  | before =>
    obtain ⟨edge, first, w, hedge, hfirst, hw, rfl⟩ := relativeRule_before_eq_ok_iff.mp hb
    obtain ⟨edge', hedge', hsecond⟩ := halike.lower hedge
    exact ⟨_, relativeRule_before_eq_ok_iff.mpr
      ⟨edge', first, w, hedge', hfirst.trans hsecond, hw, rfl⟩, rfl, halike.last⟩

/-! ## Modes -/

variable {b : Brief}

theorem Brief.resolve_eq_ok_iff {minimum : Bool} {x : Bounds} :
    (b.resolve minimum).outcome = .ok x ↔
      ∃ ends, b.ends minimum = .ok ends ∧ x = ⟨some ends.1, some ends.2⟩ := by
  constructor
  · intro h
    rw [resolve, Traced.outcome_bind, Traced.outcome_lift] at h
    obtain ⟨ends, hends, hdone⟩ := bind_eq_ok h
    cases hdone
    exact ⟨ends, hends, rfl⟩
  · rintro ⟨ends, hends, rfl⟩
    exact resolve_outcome hends

theorem Brief.resolve_bind_eq_ok_iff {minimum : Bool} {rule : Bounds → Traced Bounds} {x : Bounds} :
    (b.resolve minimum >>= rule).outcome = .ok x ↔
      ∃ ends, b.ends minimum = .ok ends ∧ (rule ⟨some ends.1, some ends.2⟩).outcome = .ok x := by
  rw [Traced.outcome_bind]
  constructor
  · intro h
    obtain ⟨limits, hlimits, hrule⟩ := bind_eq_ok h
    obtain ⟨ends, hends, rfl⟩ := resolve_eq_ok_iff.mp hlimits
    exact ⟨ends, hends, hrule⟩
  · rintro ⟨ends, hends, hrule⟩
    rw [resolve_outcome hends]
    exact hrule

theorem Brief.ends_alike {ends : Anchor × Anchor} (h : b.ends true = .ok ends) :
    ∃ ends', b.ends false = .ok ends' ∧
      Bounds.Alike ⟨some ends.1, some ends.2⟩ ⟨some ends'.1, some ends'.2⟩ := by
  obtain ⟨first, last, hends, -, -, hfirst, hlast, -⟩ := ends_spec h
  refine ⟨_, hends, congrArg (fun a => Limit.second (Anchor.lowerSecond a)) hfirst, ?_⟩
  change Limit.second ends.2.upperSecond = .second (Anchor.closed last).upperSecond
  rw [hlast, Anchor.upperSecond_closed]

/-- After a brief, a rule that respects the seconds of its limits succeeds in both modes alike, but
where the brief ends with the calendar. -/
theorem Respects.modes {rule : Bounds → Traced Bounds} (hrule : Respects rule) :
    (∀ x, (b.resolve true >>= rule).outcome = .ok x →
      ∃ x', (b.resolve false >>= rule).outcome = .ok x' ∧ x.Alike x') ∧
    ∀ x' f, (b.resolve false >>= rule).outcome = .ok x' →
      (b.resolve true >>= rule).outcome = .error f → b.EndsCalendar := by
  constructor
  · intro x hx
    obtain ⟨ends, hends, hdone⟩ := Brief.resolve_bind_eq_ok_iff.mp hx
    obtain ⟨ends', hends', halike⟩ := Brief.ends_alike hends
    obtain ⟨x', hdone', halike'⟩ := hrule halike hdone
    exact ⟨x', Brief.resolve_bind_eq_ok_iff.mpr ⟨ends', hends', hdone'⟩, halike'⟩
  · intro x' f hx' hf
    by_contra hb
    obtain ⟨ends', hends', hdone'⟩ := Brief.resolve_bind_eq_ok_iff.mp hx'
    obtain ⟨first, hfirst⟩ := Brief.civil_of_ends hends'
    obtain ⟨ends, hends⟩ := Brief.exists_ends (Brief.valid_of_civil hfirst) hb
    obtain ⟨ends'', hends'', halike⟩ := Brief.ends_alike hends
    cases hends'.symm.trans hends''
    obtain ⟨x, hdone, -⟩ := hrule halike.symm hdone'
    cases hf.symm.trans (Brief.resolve_bind_eq_ok_iff.mpr ⟨ends, hends, hdone⟩)

theorem Value.modes (v : Value) :
    (∀ x, (v.resolve true).outcome = .ok x →
      ∃ x', (v.resolve false).outcome = .ok x' ∧ x.Alike x') ∧
    ∀ x' f, (v.resolve false).outcome = .ok x' → (v.resolve true).outcome = .error f →
      ∃ b ∈ v.briefs, b.EndsCalendar := by
  have hlone : ∀ {b : Brief} {rule}, Respects rule → v.briefs = [b] →
      (∀ minimum, v.resolve minimum = b.resolve minimum >>= rule) →
      (∀ x, (v.resolve true).outcome = .ok x →
        ∃ x', (v.resolve false).outcome = .ok x' ∧ x.Alike x') ∧
      ∀ x' f, (v.resolve false).outcome = .ok x' → (v.resolve true).outcome = .error f →
        ∃ b ∈ v.briefs, b.EndsCalendar := by
    intro b rule hrule hbriefs hv
    rw [hv, hv, hbriefs]
    obtain ⟨halike, hends⟩ := hrule.modes (b := b)
    exact ⟨halike, fun x' f hx' hf => ⟨b, List.mem_singleton_self b, hends x' f hx' hf⟩⟩
  cases v with
  | brief b => exact hlone respects_pure rfl fun _ => (bind_pure _).symm
  | duration a =>
    constructor
    · intro x hx
      cases hx
    · intro x' f hx'
      cases hx'
  | lower b => exact hlone (respects_lowerRule b.strict) rfl fun _ => rfl
  | upper b => exact hlone (respects_upperRule b.strict) rfl fun _ => rfl
  | between l u =>
    refine ⟨fun x hx => ⟨x, hx, rfl, rfl⟩, fun x' f hx' hf => ?_⟩
    cases hf.symm.trans hx'
  | relative base side extent =>
    exact hlone (respects_relativeRule side (.ofAmounts extent)) rfl fun _ => rfl

theorem noted_lowerRule (strict : Bool) (limits : Bounds) : (lowerRule strict limits).Noted := by
  cases strict with
  | false => exact Traced.noted_note _ _
  | true =>
    change (((some ·.flipped) <$> required limits.upper) >>= _).Noted
    exact .bind fun _ => Traced.noted_note _ _

theorem noted_upperRule (strict : Bool) (limits : Bounds) : (upperRule strict limits).Noted := by
  cases strict with
  | false => exact Traced.noted_note _ _
  | true =>
    change (((some ·.flipped) <$> required limits.lower) >>= _).Noted
    exact .bind fun _ => Traced.noted_note _ _

theorem noted_relativeRule (side : Side) (limits : Bounds) (d : Duration) :
    (relativeRule side limits d).Noted := by
  unfold relativeRule
  cases side with
  | after => exact .bind fun _ => .bind fun _ => Traced.noted_note _ _
  | before => exact .bind fun _ => .bind fun _ => Traced.noted_note _ _

theorem Value.noted_resolve (minimum : Bool) (v : Value) : (v.resolve minimum).Noted := by
  unfold resolve
  cases v with
  | brief b => exact .bind fun _ => Traced.noted_note _ _
  | duration a => exact Traced.noted_fail _
  | lower b => exact .bind fun _ => noted_lowerRule _ _
  | upper b => exact .bind fun _ => noted_upperRule _ _
  | between l u =>
    exact .bind fun _ => .bind fun _ => .bind fun _ => .bind fun _ => Traced.noted_note _ _
  | relative base side extent => exact .bind fun _ => noted_relativeRule _ _ _

/-- What is resolved with `minimum` is resolved without it too, to bounds with the same sides, which
start and end at the same seconds and hold the same versions. Only a brief whose unit ends with the
calendar is refused with `minimum` and not without it. -/
theorem resolve_modes (room : Room) (v : Value) (switch : Except Fault Bool) :
    (∀ b, (v.node.resolve room true).under switch = .ok b →
      ∃ b', (v.node.resolve room false).under switch = .ok b' ∧
        (b.lower = none ↔ b'.lower = none) ∧ (b.upper = none ↔ b'.upper = none) ∧
        b.first = b'.first ∧ b.last = b'.last ∧ ∀ w, b.Holds w ↔ b'.Holds w) ∧
    ∀ b' f, (v.node.resolve room false).under switch = .ok b' →
      (v.node.resolve room true).under switch = .error f → ∃ x ∈ v.briefs, x.EndsCalendar := by
  rw [v.resolve_node room, v.resolve_node room]
  obtain ⟨halike, hends⟩ := v.modes
  constructor
  · intro b hb
    obtain ⟨hswitch, hb⟩ := (Traced.under_eq_ok_iff (v.noted_resolve true)).mp hb
    obtain ⟨b', hb', h⟩ := halike b hb
    exact ⟨b', (Traced.under_eq_ok_iff (v.noted_resolve false)).mpr ⟨hswitch, hb'⟩,
      h.lower_eq_none_iff, h.upper_eq_none_iff, h.first, h.last, h.holds_iff⟩
  · intro b' f hb' hf
    obtain ⟨⟨w, rfl⟩, hb'⟩ := (Traced.under_eq_ok_iff (v.noted_resolve false)).mp hb'
    rw [Traced.under_ok] at hf
    exact hends b' f hb' hf

/-- The last year has no year after it. -/
theorem resolve_modes_last_year :
    let room : Room := .ample 0
    (∃ b, ((Value.brief (.year 9999)).node.resolve room false).under (.ok false) = .ok b) ∧
      (∃ f, ((Value.brief (.year 9999)).node.resolve room true).under (.ok false) = .error f) ∧
      (Brief.year 9999).EndsCalendar := by
  intro room
  obtain ⟨b, hb⟩ : ∃ b, ((Value.brief (.year 9999)).node.resolve room false).under (.ok false) = .ok b :=
    exists_ok (by decide +kernel)
  obtain ⟨f, hf⟩ :
      ∃ f, ((Value.brief (.year 9999)).node.resolve room true).under (.ok false) = .error f :=
    exists_error (by decide +kernel)
  obtain ⟨x, hx, hends⟩ := (resolve_modes room (.brief (.year 9999)) (.ok false)).2 b f hb hf
  cases List.mem_singleton.mp hx
  exact ⟨⟨b, hb⟩, ⟨f, hf⟩, hends⟩

end Expr

end DateSpan
