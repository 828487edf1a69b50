import DateSpan.Proofs.Spec.Agreement
import DateSpan.Proofs.Version.Fields

/-! Faults of data that are not reported as faults of what was given: numbers that are too large, or have
too many digits, for the place where they are looked at. Here for versions, durations and anchors. -/

namespace DateSpan

open Calendar DateSpan.Expr

/-! ## Faults that escape -/

namespace Fault

/-- The fault says what is wrong with the form, the dates or the kind of what was given. -/
def IsReported (f : Fault) : Prop :=
  f.classOf = .parse ∨ f.classOf = .logic ∨ f.classOf = .type

instance : DecidablePred IsReported :=
  fun _ => inferInstanceAs (Decidable (_ ∨ _ ∨ _))

namespace IsReported

variable {f : Fault}

theorem parse (h : f.classOf = .parse) : f.IsReported := .inl h

theorem logic (h : f.classOf = .logic) : f.IsReported := .inr (.inl h)

theorem type (h : f.classOf = .type) : f.IsReported := .inr (.inr h)

end IsReported

/-- The outcome is this fault, and it is not reported. -/
def Escapes {α : Type} (f : Fault) (x : Except Fault α) : Prop :=
  x = .error f ∧ ¬ f.IsReported

variable {α β : Type} {f g : Fault} {x : Except Fault α}

@[simp] theorem not_escapes_ok (f : Fault) (a : α) : ¬ f.Escapes (.ok a) :=
  fun h => nomatch h.1

theorem escapes_error (h : ¬ g.IsReported) : f.Escapes (.error g : Except Fault α) ↔ f = g := by
  constructor
  · rintro ⟨heq, -⟩
    cases heq
    rfl
  · rintro rfl
    exact ⟨rfl, h⟩

theorem not_escapes_error (h : g.IsReported) : ¬ f.Escapes (.error g : Except Fault α) := by
  rintro ⟨heq, hf⟩
  cases heq
  exact hf h

theorem escapes_ok (a : α) : f.Escapes (.ok a) ↔ False :=
  iff_false_intro (not_escapes_ok f a)

theorem escapes_reported (h : g.IsReported) : f.Escapes (.error g : Except Fault α) ↔ False :=
  iff_false_intro (not_escapes_error h)

/-- What can only fail as reported lets no fault escape. -/
theorem not_escapes (h : ∀ g, x = .error g → g.IsReported) : ¬ f.Escapes x :=
  fun hf => hf.2 (h f hf.1)

theorem escapes_bind {k : α → Except Fault β} :
    f.Escapes (x >>= k) ↔ f.Escapes x ∨ ∃ a, x = .ok a ∧ f.Escapes (k a) := by
  constructor
  · rintro ⟨h, hf⟩
    rcases bind_eq_error h with hx | ⟨a, hx, hk⟩
    · exact .inl ⟨hx, hf⟩
    · exact .inr ⟨a, hx, hk, hf⟩
  · rintro (⟨rfl, hf⟩ | ⟨a, rfl, hk⟩)
    · exact ⟨rfl, hf⟩
    · exact hk

/-- What comes after an outcome lets no fault escape. -/
theorem escapes_bind_of {k : α → Except Fault β} (h : ∀ a, ¬ f.Escapes (k a)) :
    f.Escapes (x >>= k) ↔ f.Escapes x := by
  rw [escapes_bind]
  constructor
  · rintro (hx | ⟨a, -, hk⟩)
    · exact hx
    · exact absurd hk (h a)
  · exact .inl

theorem escapes_map {g : α → β} : f.Escapes (x.map g) ↔ f.Escapes x := by
  cases x with
  | error e => exact ⟨fun h => ⟨map_eq_error h.1, h.2⟩, fun h => ⟨congrArg (Except.map g) h.1, h.2⟩⟩
  | ok a => exact iff_of_false (not_escapes_ok f (g a)) (not_escapes_ok f a)

theorem escapes_mapM {k : α → Except Fault β} {xs : List α} :
    f.Escapes (xs.mapM k) ↔ ∃ before a after, xs = before ++ a :: after ∧
      (∀ y ∈ before, ∃ b, k y = .ok b) ∧ f.Escapes (k a) := by
  constructor
  · rintro ⟨h, hf⟩
    obtain ⟨before, a, after, hxs, hbefore, ha⟩ := mapM_eq_error_iff.mp h
    exact ⟨before, a, after, hxs, hbefore, ha, hf⟩
  · rintro ⟨before, a, after, hxs, hbefore, ha, hf⟩
    exact ⟨mapM_eq_error_iff.mpr ⟨before, a, after, hxs, hbefore, ha⟩, hf⟩

/-- Of the faults of a text only those for its numbers escape. -/
theorem escapes_text {p : Policy} {s : String}
    (herror : ∀ g, x = .error g → g.OfText p s ∨ g = .tooLarge)
    (hlong : LongFront s.toList → x = .error .longNumber) :
    f.Escapes x ↔
      f = .longNumber ∧ LongFront s.toList ∨ f = .tooLarge ∧ x = .error .tooLarge := by
  constructor
  · rintro ⟨h, hf⟩
    rcases herror f h with (hparse | ⟨hlogic, -⟩ | hl) | rfl
    · exact absurd (.parse hparse) hf
    · exact absurd (.logic hlogic) hf
    · exact .inl hl
    · exact .inr ⟨rfl, h⟩
  · rintro (⟨rfl, hl⟩ | ⟨rfl, h⟩)
    · exact ⟨hlong hl, by decide⟩
    · exact ⟨h, by decide⟩

theorem escapes_text_long {p : Policy} {s : String} (herror : ∀ g, x = .error g → g.OfText p s)
    (hlong : LongFront s.toList → x = .error .longNumber) :
    f.Escapes x ↔ f = .longNumber ∧ LongFront s.toList := by
  rw [escapes_text (fun g h => .inl (herror g h)) hlong]
  refine or_iff_left ?_
  rintro ⟨-, h⟩
  exact not_ofText_tooLarge (herror _ h)

end Fault

variable {p : Policy} {room : Room} {f : Fault}

/-! ## Versions -/

/-- The microseconds from the start of year 1 to a moment, in UTC, of a clock that is so many of them
ahead. -/
def Calendar.Moment.utcMicro (m : Moment) (offset : Int) : Int :=
  1000000 * m.instant.seconds + m.micro - offset

theorem Calendar.Moment.shiftMicro_eq_none_iff {m : Moment} {offset : Int} :
    m.shiftMicro (-offset) = none ↔
      m.utcMicro offset < 0 ∨ 1000000 * (calendarSeconds : Int) ≤ m.utcMicro offset := by
  have hfloor : ∀ n : Int, n / 1000000 * 1000000 ≤ n ∧ n < n / 1000000 * 1000000 + 1000000 := by omega
  have hbounds := hfloor (m.micro + -offset)
  simp only [shiftMicro, Instant.shiftSeconds, Option.map_eq_none_iff, Instant.ofSeconds?,
    dite_eq_right_iff, reduceCtorEq, imp_false, utcMicro]
  generalize ((m.micro : Int) + -offset) / 1000000 = q at hbounds
  omega

namespace Version

/-- Which fault escapes where a datum is taken for a version. -/
def Unreported : Datum → Fault → Prop
  | .int n, f => f = .tooLarge ∧ floatLimit ≤ n.natAbs
  | .datetime m (some offset), f =>
    f = .tooLarge ∧ (m.utcMicro offset < 0 ∨ 1000000 * (calendarSeconds : Int) ≤ m.utcMicro offset)
  | .text s, f => f = .longNumber ∧ LongFront s.toList
  | _, _ => False

theorem not_escapes_ofMoment (m : Moment) : ¬ f.Escapes (ofMoment m) :=
  Fault.not_escapes fun _ h => .logic (ofMoment_error h)

theorem escapes_ofEpoch (n : Int) :
    f.Escapes (ofEpoch n) ↔ f = .tooLarge ∧ floatLimit ≤ n.natAbs := by
  unfold ofEpoch
  split
  · rename_i hlarge
    rw [Fault.escapes_error (by decide)]
    exact (and_iff_left hlarge).symm
  · rename_i hsmall
    refine iff_of_false ?_ fun h => hsmall h.2
    split
    · exact Fault.not_escapes_error (.logic rfl)
    · split
      · exact Fault.not_escapes_ok f _
      · exact Fault.not_escapes_error (.logic rfl)

theorem not_escapes_ofFloatEpoch (x : Decimal.Binary64) : ¬ f.Escapes (ofFloatEpoch x) := by
  unfold ofFloatEpoch
  split
  · exact Fault.not_escapes_error (.logic rfl)
  · split
    · exact Fault.not_escapes_error (.logic rfl)
    · split
      · exact Fault.not_escapes_ok f _
      · exact Fault.not_escapes_error (.logic rfl)

theorem escapes_ofClock (m : Moment) (offset : Int) :
    f.Escapes (ofClock m (some offset)) ↔
      f = .tooLarge ∧
        (m.utcMicro offset < 0 ∨ 1000000 * (calendarSeconds : Int) ≤ m.utcMicro offset) := by
  rw [← Moment.shiftMicro_eq_none_iff]
  unfold ofClock
  simp only
  split
  · rename_i hsome
    refine iff_of_false (not_escapes_ofMoment _) ?_
    rintro ⟨-, hnone⟩
    cases hsome.symm.trans hnone
  · rename_i hnone
    rw [Fault.escapes_error (by decide)]
    exact (and_iff_left hnone).symm

theorem escapes_ofDatum (hp : p.Valid) (d : Datum) :
    f.Escapes (ofDatum p d) ↔ Unreported d f := by
  cases d with
  | version v => exact Fault.escapes_ok v
  | int n => exact escapes_ofEpoch n
  | float x => exact iff_of_false (not_escapes_ofFloatEpoch x) id
  | datetime m offset =>
    cases offset with
    | none => exact iff_of_false (not_escapes_ofMoment m) id
    | some offset => exact escapes_ofClock m offset
  | date midnight => exact iff_of_false (not_escapes_ofMoment _) id
  | text s =>
    exact Fault.escapes_text_long (fun _ => ofText_error hp)
      fun h => Policy.read_bind_long hp h _
  | _ => exact Fault.escapes_reported (.type rfl)

theorem escapes_ofFields (year month day hour minute second : Int) :
    f.Escapes (ofFields year month day hour minute second) ↔
      f = .tooLarge ∧ ∃ n ∈ [year, month, day, hour, minute, second], ¬ fitsWord n := by
  rw [← List.all_eq_false]
  by_cases hwords : [year, month, day, hour, minute, second].all fitsWord = true
  · refine iff_of_false (Fault.not_escapes fun g hg => ?_) fun h => ?_
    · exact .logic (ofFields_error hwords hg)
    · cases hwords.symm.trans h.2
  · have hlarge : ofFields year month day hour minute second = .error .tooLarge := by
      rw [ofFields, ofFieldsShown, if_neg hwords]
    rw [hlarge, Fault.escapes_error (by decide)]
    exact (and_iff_left (Bool.eq_false_iff.mpr hwords)).symm

/-- What is not given is as if its default were given. -/
theorem ofComponents_padded (room : Room) (first : Datum) {more : List Datum}
    (hmore : more.length ≤ 5) :
    ofComponents room (first :: more) =
      ofComponents room (first :: (more ++ fieldDefaults.drop more.length)) := by
  have hfull : (more ++ fieldDefaults.drop more.length).length = 5 := by
    rw [List.length_append, List.length_drop]
    exact Nat.add_sub_cancel' hmore
  have hdrop : fieldDefaults.drop 5 = [] := rfl
  simp only [ofComponents, hfull, hdrop, List.append_nil, List.cons_append]

/-- Fewer than six whole numbers count as six of them. -/
theorem exists_padding (room : Room) (year : Int) {more : List Int} (hmore : more.length ≤ 5) :
    ∃ padding : List Int, (more ++ padding).length = 5 ∧ (∀ n ∈ padding, fitsWord n) ∧
      ofComponents room ((year :: more).map .int) =
        ofComponents room ((year :: (more ++ padding)).map .int) := by
  have hdefaults : ∀ n ∈ [(1 : Int), 1, 0, 0, 0], fitsWord n := by decide
  refine ⟨[1, 1, 0, 0, 0].drop more.length, ?_, ?_, ?_⟩
  · rw [List.length_append, List.length_drop]
    exact Nat.add_sub_cancel' hmore
  · exact fun n hn => hdefaults n (List.mem_of_mem_drop hn)
  · rw [List.map_cons, ofComponents_padded _ _ (by rwa [List.length_map]), List.length_map,
      List.map_cons, List.map_append, List.map_drop]
    rfl

/-- Of one to six whole numbers, only those that do not fit their places are not reported. -/
theorem escapes_ofComponents (room : Room) (year : Int) {more : List Int}
    (hmore : more.length ≤ 5) :
    f.Escapes (ofComponents room ((year :: more).map .int)) ↔
      f = .tooLarge ∧ ∃ n ∈ year :: more, ¬ fitsWord n := by
  obtain ⟨padding, hlength, hpadding, heq⟩ := exists_padding room year hmore
  have hall : (∃ n ∈ year :: (more ++ padding), ¬ fitsWord n) ↔ ∃ n ∈ year :: more, ¬ fitsWord n := by
    rw [← List.cons_append]
    constructor
    · rintro ⟨n, hn, hword⟩
      rcases List.mem_append.mp hn with hn | hn
      · exact ⟨n, hn, hword⟩
      · exact absurd (hpadding n hn) hword
    · rintro ⟨n, hn, hword⟩
      exact ⟨n, List.mem_append_left padding hn, hword⟩
  rw [heq, ← hall]
  generalize more ++ padding = numbers at hlength
  match numbers, hlength with
  | [month, day, hour, minute, second], _ =>
    rw [ofComponents_ints]
    exact escapes_ofFields year month day hour minute second

end Version

/-! ## Messages -/

namespace Datum

/-- Why the form of a datum that a message quotes cannot be written. -/
def Unquotable (room : Room) (d : Datum) (f : Fault) : Prop :=
  d.isNested ∧ room.shows d = false ∧ f = .nestedTooDeep ∨
    (d.isNested → room.shows d) ∧ d.isShowable = false ∧ f = .longNumber

theorem quoted_eq_error_iff {d : Datum} : d.quoted room = .error f ↔ d.Unquotable room f := by
  unfold quoted Unquotable
  cases d.isNested <;> cases room.shows d <;> cases d.isShowable <;>
    simp [eq_comm]

theorem escapes_quoted (d : Datum) : f.Escapes (d.quoted room) ↔ d.Unquotable room f := by
  rw [← quoted_eq_error_iff]
  refine ⟨And.left, fun h => ⟨h, ?_⟩⟩
  rcases quoted_eq_error_iff.mp h with ⟨-, -, rfl⟩ | ⟨-, -, rfl⟩
  · decide
  · decide

end Datum

/-! ## Durations -/

namespace Duration

theorem escapes_countOf (unit : Component) (amount : Option Datum) :
    f.Escapes (countOf room unit amount) ↔
      ∃ d, amount = some d ∧ (∀ n, d ≠ .int n) ∧ d.Unquotable room f := by
  unfold countOf
  split
  · refine iff_of_false (Fault.not_escapes_ok f 0) ?_
    rintro ⟨d, hd, -⟩
    cases hd
  · refine iff_of_false (Fault.not_escapes_ok f 0) ?_
    rintro ⟨d, hd, -, hquote⟩
    cases hd
    cases Datum.quoted_eq_error_iff.mpr hquote
  · rename_i n
    refine iff_of_false ?_ ?_
    · split
      · exact Fault.not_escapes_error (.logic rfl)
      · exact Fault.not_escapes_ok f _
    · rintro ⟨d, hd, hint, -⟩
      cases hd
      exact hint n rfl
  · rename_i d hnull hint
    have hwrong : ∀ _ : String, ¬ f.Escapes (throw (.durationAmountType unit d) : Except Fault Nat) :=
      fun _ => Fault.not_escapes_error (.type rfl)
    rw [Fault.escapes_bind_of hwrong, Datum.escapes_quoted]
    constructor
    · intro h
      exact ⟨d, rfl, hint, h⟩
    · rintro ⟨d', hd, -, h⟩
      cases hd
      exact h

/-- The counts that a table gives, years first. -/
def countsOf (room : Room) (t : Table) : Except Fault (List Nat) :=
  Component.all.mapM fun unit => countOf room unit (t.get? unit.name)

/-- Names are looked at before counts. -/
theorem ofTable_of_unknown {t : Table} (h : unknownIn t ≠ []) :
    ofTable room t = .error (unknownFault room (unknownIn t)) := by
  rw [ofTable, if_pos h]
  rfl

theorem ofTable_of_known (room : Room) {t : Table} (h : unknownIn t = []) :
    ∃ make : List Nat → Duration,
      ofTable room t = countsOf room t >>= fun counts => pure (make counts) := by
  refine ⟨fun counts => ⟨counts.getD 0 0, counts.getD 1 0, counts.getD 2 0, counts.getD 3 0,
    counts.getD 4 0, counts.getD 5 0⟩, ?_⟩
  simp only [ofTable, h, ne_eq, not_true_eq_false, if_false, countsOf, Component.all, List.mapM_cons,
    List.mapM_nil, bind_assoc, pure_bind]
  rfl

theorem mapM_asText?_eq_none {names : List Datum} :
    names.mapM Datum.asText? = none ↔ ∃ name ∈ names, name.asText? = none := by
  induction names with
  | nil => simp
  | cons name names ih =>
    rw [List.mapM_cons, List.exists_mem_cons_iff, ← ih]
    cases name.asText? with
    | none => simp
    | some s => cases names.mapM Datum.asText? <;> simp

/-- Of unknown names that are all texts nothing escapes. -/
theorem escapes_unknownFault {names : List Datum} :
    f.Escapes (.error (unknownFault room names) : Except Fault Duration) ↔
      (∃ name ∈ names, name.asText? = none) ∧
        f = if room.compares names then .argumentMismatch else .nestedTooDeep := by
  rw [← mapM_asText?_eq_none]
  unfold unknownFault
  cases names.mapM Datum.asText? with
  | some texts =>
    refine iff_of_false (Fault.not_escapes_error (.logic rfl)) ?_
    rintro ⟨h, -⟩
    cases h
  | none =>
    have hkind : ¬ (if room.compares names then Fault.argumentMismatch
        else .nestedTooDeep).IsReported := by
      split <;> decide
    exact (Fault.escapes_error hkind).trans (and_iff_right rfl).symm

/-- Which fault escapes from a table of counts. Unknown names that are not all texts cannot be told in a
message; and of a wrong amount, the first there is, the form may not be written. -/
def TableUnreported (room : Room) (t : Table) (f : Fault) : Prop :=
  (∃ name ∈ unknownIn t, name.asText? = none) ∧
      f = (if room.compares (unknownIn t) then .argumentMismatch else .nestedTooDeep) ∨
    unknownIn t = [] ∧ ∃ before unit after d, Component.all = before ++ unit :: after ∧
      (∀ c ∈ before, ∃ n, countOf room c (t.get? c.name) = .ok n) ∧
      t.get? unit.name = some d ∧ (∀ n, d ≠ .int n) ∧ d.Unquotable room f

theorem tableUnreported_years {d : Datum} (hint : ∀ n, d ≠ .int n) (h : d.Unquotable room f) :
    TableUnreported room [("year", d)] f := by
  refine .inr ⟨rfl, [], .year, _, d, rfl, ?_, rfl, hint, h⟩
  intro c hc
  cases hc

theorem escapes_ofTable (t : Table) : f.Escapes (ofTable room t) ↔ TableUnreported room t f := by
  unfold TableUnreported
  by_cases hknown : unknownIn t = []
  · obtain ⟨make, heq⟩ := ofTable_of_known room hknown
    have hmake : ∀ counts, ¬ f.Escapes (pure (make counts) : Except Fault Duration) :=
      fun counts => Fault.not_escapes_ok f _
    rw [heq, Fault.escapes_bind_of hmake, countsOf, Fault.escapes_mapM]
    simp only [escapes_countOf, hknown, List.not_mem_nil, false_and, exists_false, false_or, true_and]
    constructor
    · rintro ⟨before, unit, after, hall, hbefore, d, hd⟩
      exact ⟨before, unit, after, d, hall, hbefore, hd⟩
    · rintro ⟨before, unit, after, d, hall, hbefore, hd⟩
      exact ⟨before, unit, after, hall, hbefore, d, hd⟩
  · rw [ofTable_of_unknown hknown, escapes_unknownFault]
    exact (or_iff_left fun h => hknown h.1).symm

/-- Which fault escapes where a datum is taken for a duration. -/
def Unreported (room : Room) : Datum → Fault → Prop
  | .text s, f => f = .longNumber ∧ LongFront s.toList
  | .dict t, f => TableUnreported room t f
  | _, _ => False

theorem escapes_ofArguments (hp : p.Valid) (d : Datum) :
    f.Escapes (ofArguments p (some d) []) ↔ Unreported p.room d f := by
  cases d with
  | null =>
    have hzero : ofTable p.room [] = .ok .zero := rfl
    change f.Escapes (ofTable p.room []) ↔ False
    rw [hzero]
    exact Fault.escapes_ok _
  | duration d => exact Fault.escapes_ok d
  | dict t => exact escapes_ofTable t
  | text s =>
    exact Fault.escapes_text_long (fun _ => ofText_error hp) fun h => Policy.read_bind_long hp h _
  | _ => exact Fault.escapes_reported (.type rfl)

end Duration

/-! ## Anchors -/

namespace Anchor

/-- Which fault escapes where a datum is taken for an anchor. -/
def Unreported : Datum → Fault → Prop
  | .dict t, f => ∃ version, Table.get? t "version" = some version ∧ Version.Unreported version f
  | d, f => Version.Unreported d f

theorem escapes_make (hp : p.Valid) (version isOpen : Datum) :
    f.Escapes (make p version isOpen) ↔ Version.Unreported version f := by
  rw [← Version.escapes_ofDatum hp]
  exact Fault.escapes_bind_of fun v => Fault.not_escapes_ok f _

theorem escapes_ofDatum (hp : p.Valid) (d : Datum) :
    f.Escapes (ofDatum p d) ↔ Unreported d f := by
  cases d with
  | anchor a => exact Fault.escapes_ok a
  | dict t =>
    simp only [ofDatum, Unreported]
    split
    · rename_i version hversion
      rw [escapes_make hp]
      constructor
      · exact fun h => ⟨version, hversion, h⟩
      · rintro ⟨version', hversion', h⟩
        cases hversion.symm.trans hversion'
        exact h
    · rename_i hnone
      refine iff_of_false (Fault.not_escapes_error (.type rfl)) ?_
      rintro ⟨version, hversion, -⟩
      cases hnone.symm.trans hversion
  | _ => exact escapes_make hp _ _

theorem escapes_ofEnd (hp : p.Valid) (d : Datum) :
    f.Escapes (ofEnd p d) ↔ Unreported d f := by
  unfold ofEnd
  split
  · exact Fault.escapes_ok none
  · exact Fault.escapes_map.trans (escapes_ofDatum hp d)

end Anchor

end DateSpan
