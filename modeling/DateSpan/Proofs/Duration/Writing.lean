import DateSpan.Proofs.Spec.Agreement

/-! Writing of durations. A written duration stands in the grammar with the counts that are not zero, and is
read as these; durations with a count of too many digits are neither written nor read. -/

namespace DateSpan

open Calendar DateSpan.Expr Text

namespace Duration

variable {p : Policy} {a : Amounts} {d : Duration} {n : Nat} {mark : Char} {rest : List Char}

/-! ## Counts -/

/-- A count as it is written: zero is not. -/
def countWritten (n : Nat) : Option Nat :=
  if n = 0 then none else some n

theorem countWritten_getD (n : Nat) : (countWritten n).getD 0 = n := by
  rw [countWritten]
  split
  · rename_i hn
    exact hn.symm
  · rfl

theorem isSome_countWritten_iff : (countWritten n).isSome ↔ n ≠ 0 := by
  rw [countWritten]
  split
  · rename_i hn
    exact iff_of_false nofun (not_not.mpr hn)
  · rename_i hn
    exact iff_of_true rfl hn

theorem part_eq_nil_iff : part n mark = [] ↔ n = 0 := by
  rw [part]
  split
  · rename_i hn
    exact iff_of_true rfl hn
  · rename_i hn
    exact iff_of_false (List.append_ne_nil_of_right_ne_nil _ (List.cons_ne_nil mark [])) hn

theorem countText_part (mark : Char) (n : Nat) : CountText mark (countWritten n) (part n mark) := by
  rw [countWritten, part]
  split
  · exact .absent
  · exact .written Nat.toDigits_ne_nil (numeral_toDigits n)

theorem length_toDigits_le_iff {k : Nat} (hk : 0 < k) :
    (Nat.toDigits 10 n).length ≤ k ↔ n < Nat.pow 10 k :=
  Nat.length_toDigits_le_iff (by decide) hk

/-- A number has too many digits just when it cannot be written. -/
theorem longNumber_toDigits_iff : LongNumber (Nat.toDigits 10 n) ↔ isWritable n = false := by
  rw [isWritable, decide_eq_false_iff_not, ← length_toDigits_le_iff (by decide), Nat.not_le]
  refine ⟨LongNumber.length_lt, fun hlong => ⟨_, List.infix_rfl, ?_, hlong⟩⟩
  exact fun _ => (numeral_toDigits n).isSome_digit?

theorem longNumber_part (hmark : digit? mark = none) :
    LongNumber (part n mark ++ rest) ↔ isWritable n = false ∨ LongNumber rest := by
  rw [part]
  split
  · rename_i hn
    have hzero : isWritable 0 = true := Version.isWritable_of_lt_floatLimit Version.floatLimit_pos
    rw [hn, hzero, List.nil_append]
    exact (or_iff_right nofun).symm
  · rw [List.append_assoc, List.singleton_append, longNumber_append_cons hmark,
      longNumber_toDigits_iff]

/-! ## Written durations -/

/-- The counts as they are written: those that are not zero, or else no seconds. -/
def amountsWritten (d : Duration) : Amounts :=
  if d.datePart = [] ∧ d.timePart = [] then ⟨none, none, none, none, none, some 0⟩
  else ⟨countWritten d.years, countWritten d.months, countWritten d.days, countWritten d.hours,
    countWritten d.minutes, countWritten d.seconds⟩

theorem datePart_eq_nil_iff : d.datePart = [] ↔ d.years = 0 ∧ d.months = 0 ∧ d.days = 0 := by
  simp only [datePart, List.append_eq_nil_iff, part_eq_nil_iff, and_assoc]

theorem timePart_eq_nil_iff : d.timePart = [] ↔ d.hours = 0 ∧ d.minutes = 0 ∧ d.seconds = 0 := by
  simp only [timePart, List.append_eq_nil_iff, part_eq_nil_iff, and_assoc]

theorem ofAmounts_amountsWritten (d : Duration) : ofAmounts d.amountsWritten = d := by
  rw [amountsWritten]
  split
  · rename_i h
    obtain ⟨hyears, hmonths, hdays⟩ := datePart_eq_nil_iff.mp h.1
    obtain ⟨hhours, hminutes, hseconds⟩ := timePart_eq_nil_iff.mp h.2
    cases d
    cases hyears; cases hmonths; cases hdays; cases hhours; cases hminutes; cases hseconds
    rfl
  · simp only [ofAmounts, countWritten_getD]

theorem timeText_written (d : Duration) :
    TimeText (countWritten d.hours) (countWritten d.minutes) (countWritten d.seconds)
      (if d.timePart = [] then [] else 'T' :: d.timePart) := by
  split
  · rename_i h
    obtain ⟨hhours, hminutes, hseconds⟩ := timePart_eq_nil_iff.mp h
    rw [hhours, hminutes, hseconds]
    exact .absent
  · rename_i h
    have htime := TimeText.written (countText_part 'H' d.hours) (countText_part 'M' d.minutes)
      (countText_part 'S' d.seconds)
    rw [← List.append_assoc] at htime
    refine htime ?_
    rw [timePart_eq_nil_iff] at h
    simp only [isSome_countWritten_iff]
    omega

theorem letters_eq (h : ¬ (d.datePart = [] ∧ d.timePart = [])) :
    d.letters = 'P' :: (d.datePart ++ if d.timePart = [] then [] else 'T' :: d.timePart) := by
  rw [letters, if_neg h]
  split
  · rw [List.append_nil]
  · rfl

/-- A written duration stands in the grammar. -/
theorem durationText_letters (d : Duration) : DurationText d.amountsWritten d.letters := by
  by_cases h : d.datePart = [] ∧ d.timePart = []
  · have hzero : CountText 'S' (some 0) ['0', 'S'] :=
      .written (List.cons_ne_nil '0' []) (numeral_toDigits 0)
    rw [amountsWritten, if_pos h, letters, if_pos h]
    exact .written .absent .absent .absent (.written .absent .absent hzero (.inr (.inr rfl))) (by simp)
  · have hdate := DurationText.written (countText_part 'Y' d.years) (countText_part 'M' d.months)
      (countText_part 'D' d.days) d.timeText_written
    rw [← List.append_assoc, ← List.append_assoc] at hdate
    rw [amountsWritten, if_neg h, letters_eq h]
    refine hdate ?_
    rw [datePart_eq_nil_iff, timePart_eq_nil_iff] at h
    simp only [isSome_countWritten_iff]
    omega

/-! ## Counts of too many digits -/

theorem isShowable_iff : (Datum.duration d).isShowable ↔ ∀ c, isWritable (d.amount c) := by
  rw [Datum.isShowable, List.all_eq_true, amounts, List.forall_mem_map]
  exact ⟨fun h c => h c (by cases c <;> decide), fun h c _ => h c⟩

theorem longNumber_datePart :
    LongNumber (d.datePart ++ rest) ↔ isWritable d.years = false ∨ isWritable d.months = false ∨
      isWritable d.days = false ∨ LongNumber rest := by
  obtain ⟨hY, hM, hD, -, -⟩ := digit?_designator
  simp only [datePart, List.append_assoc, longNumber_part hY, longNumber_part hM, longNumber_part hD]

theorem longNumber_timePart :
    LongNumber d.timePart ↔ isWritable d.hours = false ∨ isWritable d.minutes = false ∨
      isWritable d.seconds = false := by
  obtain ⟨-, hM, -, hH, hS⟩ := digit?_designator
  rw [← List.append_nil d.timePart]
  simp only [timePart, List.append_assoc, longNumber_part hH, longNumber_part hM, longNumber_part hS,
    not_longNumber_nil, or_false]

theorem longNumber_cons_iff {c : Char} (hc : digit? c = none) :
    LongNumber (c :: rest) ↔ LongNumber rest :=
  longNumber_append_of_no_digit (List.forall_mem_singleton.mpr hc) rest

theorem longNumber_letters_parts :
    LongNumber d.letters ↔ LongNumber (d.datePart ++ d.timePart) := by
  have hP : digit? 'P' = none := digit?_eq_none (by decide)
  have hT : digit? 'T' = none := digit?_eq_none (by decide)
  by_cases h : d.datePart = [] ∧ d.timePart = []
  · rw [letters, if_pos h, h.1, h.2, List.append_nil]
    refine iff_of_false (fun hlong => ?_) not_longNumber_nil
    exact absurd hlong.length_lt (by decide)
  · rw [letters_eq h, longNumber_cons_iff hP, longNumber_datePart, longNumber_datePart]
    split
    · rename_i htime
      rw [htime]
    · rw [longNumber_cons_iff hT]

/-- A written duration holds a number of too many digits just when one of its counts is such. -/
theorem longNumber_letters_iff : LongNumber d.letters ↔ ∃ c, isWritable (d.amount c) = false := by
  rw [longNumber_letters_parts, longNumber_datePart, longNumber_timePart]
  constructor
  · rintro (h | h | h | h | h | h)
    exacts [⟨.year, h⟩, ⟨.month, h⟩, ⟨.day, h⟩, ⟨.hour, h⟩, ⟨.minute, h⟩, ⟨.second, h⟩]
  · rintro ⟨c, hc⟩
    cases c <;> simp only [amount] at hc <;> simp only [hc, true_or, or_true]

/-! ## Reading -/

/-- The text is a duration with these counts, and nothing else but blanks. -/
def Writes (s : String) (a : Amounts) (l : List Char) : Prop :=
  DurationText a l ∧ ∃ before after, s.toList = before ++ (l ++ after) ∧ Blank before ∧ Blank after

theorem Writes.derivation {s : String} {l : List Char} (h : Writes s a l) :
    Derivation s.toList ⟨.duration a, []⟩ [.duration a] [l] := by
  obtain ⟨htext, before, after, hs, hbefore, hafter⟩ := h
  rw [hs]
  exact htext.derivation hbefore hafter

theorem writes_of_derivation {s : String} {ts : List Token} {ls : List (List Char)}
    (h : Derivation s.toList ⟨.duration a, []⟩ ts ls) : ∃ l, ls = [l] ∧ Writes s a l := by
  obtain ⟨⟨rest, hw, hr⟩, hf⟩ := h
  generalize hcs : s.toList = cs at hw
  cases hf with
  | cons _ hvs => cases hvs
  | single hv =>
    cases hv
    cases hw with
    | cons hb hs hw =>
      cases hw
      cases hs with
      | duration htext => exact ⟨_, rfl, htext, _, _, hcs, hb, hr⟩

theorem ofText_iff_writes (hp : p.Valid) {s : String} :
    ofText p s = .ok d ↔ ∃ a l, Writes s a l ∧ ¬ LongNumber l ∧ d = ofAmounts a := by
  rw [ofText_eq_ok_iff]
  constructor
  · rintro ⟨a, hread, rfl⟩
    obtain ⟨ts, ls, hder, hlong⟩ := (Policy.read_eq_ok_iff hp).mp hread
    obtain ⟨l, rfl, hwrites⟩ := writes_of_derivation hder
    exact ⟨a, l, hwrites, hlong l (List.mem_singleton_self l), rfl⟩
  · rintro ⟨a, l, hwrites, hlong, rfl⟩
    exact ⟨a, (Policy.read_eq_ok_iff hp).mpr
      ⟨_, _, hwrites.derivation, List.forall_mem_singleton.mpr hlong⟩, rfl⟩

theorem Writes.ofText_long (hp : p.Valid) {s : String} {l : List Char} (h : Writes s a l)
    (hl : LongNumber l) : ofText p s = .error .longNumber :=
  Policy.read_bind_long hp
    ⟨_, _, _, _, List.prefix_rfl, h.derivation, l, List.mem_singleton_self l, hl⟩ _

theorem writes_text (d : Duration) : Writes d.text d.amountsWritten d.letters := by
  refine ⟨d.durationText_letters, [], [], ?_, nofun, nofun⟩
  rw [text, String.toList_ofList, List.append_nil, List.nil_append]

theorem ofText_text (hp : p.Valid) (h : ∀ c, isWritable (d.amount c)) : ofText p d.text = .ok d := by
  refine (ofText_iff_writes hp).mpr ⟨_, _, d.writes_text, ?_, d.ofAmounts_amountsWritten.symm⟩
  rw [longNumber_letters_iff]
  rintro ⟨c, hc⟩
  exact Bool.false_ne_true (hc.symm.trans (h c))

/-- Every count of a duration that was read can be written. -/
theorem isWritable_of_ofText (hp : p.Valid) {s : String} (h : ofText p s = .ok d) (c : Component) :
    isWritable (d.amount c) := by
  obtain ⟨a, l, ⟨htext, -⟩, hlong, rfl⟩ := (ofText_iff_writes hp).mp h
  exact (htext.small hlong).amount c

/-- No two durations are written alike. -/
theorem text_injective : Function.Injective text := by
  intro d e h
  have hwrites := d.writes_text
  rw [h] at hwrites
  obtain ⟨hexpr, -⟩ := hwrites.derivation.unique e.writes_text.derivation
  have hamounts := Value.duration.inj (Expression.mk.inj hexpr).1
  rw [← d.ofAmounts_amountsWritten, hamounts, e.ofAmounts_amountsWritten]

theorem written_eq_ok (h : ∀ c, isWritable (d.amount c)) : d.written = .ok d.text :=
  if_pos (isShowable_iff.mpr h)

theorem written_eq_error {c : Component} (h : isWritable (d.amount c) = false) :
    d.written = .error .longNumber :=
  if_neg fun hshow => Bool.false_ne_true (h.symm.trans (isShowable_iff.mp hshow c))

/-- A duration whose counts have few enough digits is written, and its text denotes it; another is neither
written nor read. No two durations are written alike. A text of a duration denotes what its counts say, those
that are not written being zero, unless it has a number of too many digits; and what it denotes is written as
a text that denotes the same. -/
theorem writing_faithful (hp : p.Valid) :
    (∀ d : Duration, (∀ c, isWritable (d.amount c)) →
      d.written = .ok d.text ∧ ofArguments p (some (.text d.text)) [] = .ok d) ∧
    (∀ (d : Duration) c, isWritable (d.amount c) = false →
      d.written = .error .longNumber ∧
        ofArguments p (some (.text d.text)) [] = .error .longNumber) ∧
    Function.Injective text ∧
    (∀ s a l, Writes s a l →
      (LongNumber l → ofArguments p (some (.text s)) [] = .error .longNumber) ∧
      (¬ LongNumber l → ofArguments p (some (.text s)) [] = .ok (ofAmounts a))) ∧
    ∀ s d, ofArguments p (some (.text s)) [] = .ok d →
      (∃ a l, Writes s a l ∧ d = ofAmounts a) ∧
        ∃ t, d.written = .ok t ∧ ofArguments p (some (.text t)) [] = .ok d := by
  refine ⟨fun d h => ⟨written_eq_ok h, ofText_text hp h⟩, fun d c h => ⟨written_eq_error h, ?_⟩,
    text_injective, fun s a l h => ⟨h.ofText_long hp, fun hlong => ?_⟩, fun s d h => ⟨?_, ?_⟩⟩
  · exact d.writes_text.ofText_long hp (longNumber_letters_iff.mpr ⟨c, h⟩)
  · exact (ofText_iff_writes hp).mpr ⟨a, l, h, hlong, rfl⟩
  · obtain ⟨a, l, hwrites, -, hd⟩ := (ofText_iff_writes hp).mp h
    exact ⟨a, l, hwrites, hd⟩
  · have hwritable := isWritable_of_ofText hp h
    exact ⟨_, written_eq_ok hwritable, ofText_text hp hwritable⟩

/-- A month and a minute are told apart, and ten to the 4300th years are not written. -/
theorem writing_faithful_minute :
    Policy.plain.Valid ∧
      (⟨0, 1, 0, 0, 1, 0⟩ : Duration).written = .ok "P1MT1M" ∧
      ofArguments .plain (some (.text "P1MT1M")) [] = .ok ⟨0, 1, 0, 0, 1, 0⟩ ∧
      (⟨Nat.pow 10 maxDigits, 0, 0, 0, 0, 0⟩ : Duration).written = .error .longNumber := by
  obtain ⟨hwritten, hlong, -⟩ := writing_faithful Policy.plain_valid
  have htext : (⟨0, 1, 0, 0, 1, 0⟩ : Duration).text = "P1MT1M" := by decide +kernel
  have hsmall := hwritten ⟨0, 1, 0, 0, 1, 0⟩ fun c => by cases c <;> decide +kernel
  rw [htext] at hsmall
  have hyears : isWritable (Nat.pow 10 maxDigits) = false := decide_eq_false (Nat.lt_irrefl _)
  have hlarge (n : Nat) (h : isWritable n = false) := (hlong ⟨n, 0, 0, 0, 0, 0⟩ .year h).1
  exact ⟨Policy.plain_valid, hsmall.1, hsmall.2, hlarge _ hyears⟩

end Duration

end DateSpan
