import DateSpan.Proofs.Datum.Escapes

/-! What is made of any datum: a value, a fault that is reported, or one of the faults named here. A range
lets escape what its ends do, a spec what the first item that makes no range does. -/

namespace DateSpan

open DateSpan.Expr

variable {p : Policy} {f : Fault}

/-! ## Ranges -/

namespace Range

/-- Which fault escapes where a text is taken for a range. -/
def TextUnreported (p : Policy) (s : String) (f : Fault) : Prop :=
  f = .longNumber ∧ LongFront s.toList ∨
    f = .tooLarge ∧ ∃ v, p.read s = .ok ⟨v, []⟩ ∧ v.Overflows

/-- Which fault escapes from two optional ends. The upper one is looked at if the lower one is an end. -/
def EndsUnreported (p : Policy) (lower upper : Datum) (f : Fault) : Prop :=
  Anchor.Unreported lower f ∨ (∃ l, Anchor.ofEnd p lower = .ok l) ∧ Anchor.Unreported upper f

/-- Which fault escapes where a datum is taken for a range. -/
def Unreported (p : Policy) : Datum → Fault → Prop
  | .text s, f => TextUnreported p s f
  | .dict t, f =>
    EndsUnreported p ((Table.get? t "lower").getD .null) ((Table.get? t "upper").getD .null) f
  | d, f => Version.Unreported d f

theorem not_escapes_ofBounds (b : Bounds) : ¬ f.Escapes (ofBounds b) :=
  Fault.not_escapes fun _ h => .logic (ofBounds_error h)

theorem escapes_ofText (hp : p.Valid) (s : String) :
    f.Escapes (ofText p s) ↔ TextUnreported p s f := by
  rw [Fault.escapes_text (fun _ h => (ofText_error hp h).imp id And.left)
    fun h => Policy.read_bind_long hp h _, ofText_eq_tooLarge_iff hp]
  rfl

theorem escapes_ofEnds (hp : p.Valid) (lower upper : Datum) :
    f.Escapes (ofEnds p lower upper) ↔ EndsUnreported p lower upper f := by
  have hupper : ∀ l, f.Escapes (do let u ← Anchor.ofEnd p upper; ofBounds ⟨l, u⟩) ↔
      Anchor.Unreported upper f := fun l => by
    rw [Fault.escapes_bind_of fun u => not_escapes_ofBounds ⟨l, u⟩, Anchor.escapes_ofEnd hp]
  simp only [ofEnds, Fault.escapes_bind (x := Anchor.ofEnd p lower), hupper, Anchor.escapes_ofEnd hp,
    EndsUnreported, exists_and_right]

theorem escapes_ofVersion_bind (x : Except Fault Version) :
    f.Escapes (x >>= ofVersion) ↔ f.Escapes x :=
  Fault.escapes_bind_of fun v => not_escapes_ofBounds ⟨some (.closed v), some (.closed v)⟩

theorem escapes_ofDatum (hp : p.Valid) (d : Datum) :
    f.Escapes (ofDatum p d) ↔ Unreported p d f := by
  cases d with
  | null => exact Fault.escapes_reported (.logic rfl)
  | range r => exact Fault.escapes_ok r
  | text s => exact escapes_ofText hp s
  | dict t =>
    simp only [ofDatum, Unreported]
    split
    · exact escapes_ofEnds hp _ _
    · rename_i hends
      rw [Bool.or_eq_true, not_or, Table.has, Table.has, Option.not_isSome_iff_eq_none,
        Option.not_isSome_iff_eq_none] at hends
      rw [hends.1, hends.2]
      refine iff_of_false (Fault.not_escapes_error (.type rfl)) ?_
      rintro (h | ⟨-, h⟩) <;> exact h
  | _ => exact (escapes_ofVersion_bind _).trans (Version.escapes_ofDatum hp _)

theorem escapes_make (hp : p.Valid) (d : Datum) :
    f.Escapes (make p d .null .null) ↔ Unreported p d f := by
  rw [← escapes_ofDatum hp]
  cases d with
  | null => exact Iff.rfl
  | _ => exact Iff.rfl

end Range

/-! ## Specs -/

namespace Spec

/-- Which fault escapes where a text is taken for a spec. -/
def TextUnreported (p : Policy) (s : String) (f : Fault) : Prop :=
  f = .longNumber ∧ LongFront s.toList ∨
    f = .tooLarge ∧ ∃ e before v after, p.read s = .ok e ∧ e.values = before ++ v :: after ∧
      (∀ u ∈ before, ∃ r, Range.ofValue p u = .ok r) ∧ v.Overflows

/-- Which fault escapes from the items of a spec: one of the first that makes no range. -/
def ItemsUnreported (p : Policy) (items : List Datum) (f : Fault) : Prop :=
  ∃ before d after, items = before ++ d :: after ∧ (∀ x ∈ before, ∃ r, Range.ofDatum p x = .ok r) ∧
    Range.Unreported p d f

/-- Which fault escapes from the data in a datum. -/
def DataUnreported (p : Policy) (d : Datum) (f : Fault) : Prop :=
  ∃ items, itemsOf? d = some items ∧ ItemsUnreported p items f

/-- Which fault escapes from what a table gives as the ranges of a spec. -/
def GivenUnreported (p : Policy) : Datum → Fault → Prop
  | .text _, _ | .dict _, _ => False
  | d, f => DataUnreported p d f ∨ itemsOf? d = none ∧ f = .rangesNotIterable d.typeName

/-- Which fault escapes where a datum is taken for a spec. -/
def Unreported (p : Policy) : Datum → Fault → Prop
  | .spec _, _ | .range _, _ => False
  | .text s, f => TextUnreported p s f
  | .dict t, f => ∃ d, Table.get? t "ranges" = some d ∧ GivenUnreported p d f
  | d, f => DataUnreported p d f

theorem not_escapes_ofRanges (ranges : List Range) : ¬ f.Escapes (ofRanges ranges) := by
  unfold ofRanges
  split
  · exact Fault.not_escapes_error (.logic rfl)
  · exact Fault.not_escapes_ok f _

theorem escapes_ofText (hp : p.Valid) (s : String) :
    f.Escapes (ofText p s) ↔ TextUnreported p s f := by
  rw [Fault.escapes_text (fun _ => ofText_error hp) fun h => Policy.read_bind_long hp h _,
    ofText_eq_tooLarge_iff hp]
  rfl

theorem escapes_ofData (hp : p.Valid) (items : List Datum) :
    f.Escapes (ofData p items) ↔ ItemsUnreported p items f := by
  rw [ofData, Fault.escapes_bind_of not_escapes_ofRanges, Fault.escapes_mapM]
  simp only [Range.escapes_ofDatum hp, ItemsUnreported]

theorem escapes_ofItems (hp : p.Valid) (d : Datum) (other : Fault) :
    f.Escapes (ofItems p d other) ↔
      DataUnreported p d f ∨ itemsOf? d = none ∧ f = other ∧ ¬ other.IsReported := by
  unfold ofItems DataUnreported
  cases itemsOf? d with
  | some items =>
    rw [escapes_ofData hp]
    simp only [Option.some.injEq, exists_eq_left', reduceCtorEq, false_and, or_false]
  | none =>
    simp only [reduceCtorEq, false_and, exists_false, false_or, true_and]
    constructor
    · rintro ⟨h, hf⟩
      cases h
      exact ⟨rfl, hf⟩
    · rintro ⟨rfl, hf⟩
      exact ⟨rfl, hf⟩

/-- A datum of a kind that makes no spec is reported. -/
theorem escapes_ofItems_type (hp : p.Valid) (d : Datum) :
    f.Escapes (ofItems p d (.specType d.typeName)) ↔ DataUnreported p d f := by
  rw [escapes_ofItems hp]
  refine or_iff_left ?_
  rintro ⟨-, -, h⟩
  exact h (.type rfl)

/-- In the place of the ranges it is not. -/
theorem escapes_ofItems_ranges (hp : p.Valid) (d : Datum) :
    f.Escapes (ofItems p d (.rangesNotIterable d.typeName)) ↔
      DataUnreported p d f ∨ itemsOf? d = none ∧ f = .rangesNotIterable d.typeName := by
  have hother : ¬ (Fault.rangesNotIterable d.typeName).IsReported := by
    rintro (h | h | h) <;> cases h
  rw [escapes_ofItems hp, and_iff_left hother]

theorem escapes_ofGiven (hp : p.Valid) (d : Datum) :
    f.Escapes (ofGiven p d) ↔ GivenUnreported p d f := by
  cases d with
  | text s => exact Fault.escapes_reported (.type rfl)
  | dict t => exact Fault.escapes_reported (.type rfl)
  | _ =>
    simp only [ofGiven, GivenUnreported]
    exact escapes_ofItems_ranges hp _

theorem escapes_ofDatum (hp : p.Valid) (d : Datum) :
    f.Escapes (ofDatum p d) ↔ Unreported p d f := by
  cases d with
  | text s => exact escapes_ofText hp s
  | dict t =>
    simp only [ofDatum, Unreported]
    cases Table.get? t "ranges" with
    | none => exact iff_of_false (Fault.not_escapes_error (.type rfl)) (by simp)
    | some d =>
      simp only [Option.some.injEq, exists_eq_left']
      exact escapes_ofGiven hp d
  | spec c => exact Fault.escapes_ok c
  | range r => exact iff_of_false (not_escapes_ofRanges [r]) id
  | _ =>
    simp only [ofDatum, Unreported]
    exact escapes_ofItems_type hp _

end Spec

/-! ## Constructions -/

namespace Policy

/-- What is made of a datum is a value or a reported fault, but for the faults named for its kind. -/
structure Reports (p : Policy) (d : Datum) : Prop where
  version : ∀ f, f.Escapes (Version.ofDatum p d) ↔ Version.Unreported d f
  duration : ∀ f, f.Escapes (Duration.ofArguments p (some d) []) ↔ Duration.Unreported p.room d f
  anchor : ∀ f, f.Escapes (Anchor.ofDatum p d) ↔ Anchor.Unreported d f
  range : ∀ f, f.Escapes (Range.make p d .null .null) ↔ Range.Unreported p d f
  spec : ∀ f, f.Escapes (Spec.ofDatum p d) ↔ Spec.Unreported p d f

/-- Each construction from any datum, and that of a version from one to six whole numbers, gives a value or
reports a fault, but for the faults named for it, which it lets escape. -/
theorem constructions_report (hp : p.Valid) :
    (∀ d, p.Reports d) ∧
    ∀ (year : Int) (more : List Int), more.length ≤ 5 → ∀ f : Fault,
      f.Escapes (Version.ofComponents p.room ((year :: more).map .int)) ↔
        f = .tooLarge ∧ ∃ n ∈ year :: more, ¬ Version.fitsWord n := by
  refine ⟨fun d => ?_, fun year more hmore f => Version.escapes_ofComponents p.room year hmore⟩
  constructor
  · exact fun f => Version.escapes_ofDatum hp d
  · exact fun f => Duration.escapes_ofArguments hp d
  · exact fun f => Anchor.escapes_ofDatum hp d
  · exact fun f => Range.escapes_make hp d
  · exact fun f => Spec.escapes_ofDatum hp d

/-- A policy under which messages have no room for a list within a list. -/
def cramped : Policy :=
  { plain with
    room := { plain.room with
      shows := fun
        | .list [.list _] => false
        | _ => true } }

/-- A number in the place of the ranges, an epoch that no floating-point number reaches, the start of year
1 on a clock a microsecond ahead, an amount with a number of 4301 digits in it, one that is nested too
deep, a name that is no text, and a year of more than 32 bits. -/
theorem constructions_report_escapes :
    cramped.Valid ∧
      (Fault.rangesNotIterable "int").Escapes (Spec.ofDatum cramped (.dict [("ranges", .int 5)])) ∧
      Fault.tooLarge.Escapes (Version.ofDatum cramped (.int (Nat.pow 2 1024))) ∧
      Fault.tooLarge.Escapes (Version.ofDatum cramped (.datetime ⟨⟨0, by decide⟩, 0⟩ (some 1))) ∧
      Fault.longNumber.Escapes (Duration.ofArguments cramped
        (some (.dict [("year", .list [.int (Nat.pow 10 4300)])])) []) ∧
      Fault.nestedTooDeep.Escapes (Duration.ofArguments cramped
        (some (.dict [("year", .list [.list []])])) []) ∧
      Fault.argumentMismatch.Escapes (Duration.ofArguments cramped
        (some (.dict [(.int 1, .int 2)])) []) ∧
      Fault.tooLarge.Escapes (Version.ofComponents cramped.room [.int 2147483648]) := by
  have hvalid : cramped.Valid := ⟨⟨_, rfl⟩, ⟨_, rfl⟩, ⟨_, rfl⟩⟩
  have hlist : ∀ items n, Datum.list items ≠ .int n := by
    intro items n h
    cases h
  obtain ⟨hdata, hfields⟩ := constructions_report hvalid
  refine ⟨hvalid, ?_, ?_, ?_, ?_, ?_, ?_, ?_⟩
  · exact ((hdata _).spec _).mpr ⟨.int 5, rfl, .inr ⟨rfl, rfl⟩⟩
  · exact ((hdata _).version _).mpr ⟨rfl, by decide +kernel⟩
  · exact ((hdata _).version _).mpr ⟨rfl, .inl (by decide)⟩
  · have hshow : (Datum.list [.int (Nat.pow 10 4300)]).isShowable = false := by decide +kernel
    exact ((hdata _).duration _).mpr
      (Duration.tableUnreported_years (hlist _) (.inr ⟨fun _ => rfl, hshow, rfl⟩))
  · exact ((hdata _).duration _).mpr
      (Duration.tableUnreported_years (hlist _) (.inl ⟨rfl, rfl, rfl⟩))
  · exact ((hdata _).duration _).mpr (.inl ⟨⟨.int 1, List.mem_singleton_self _, rfl⟩, rfl⟩)
  · exact (hfields 2147483648 [] (by decide) _).mpr ⟨rfl, _, List.mem_singleton_self _, by decide⟩

end Policy

end DateSpan
