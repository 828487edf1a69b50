import DateSpan.Proofs.Expr.LongNumbers
import DateSpan.Proofs.Expr.Tabs
import DateSpan.Settings.Policy

/-! Whole texts. A text is read as the one expression that the grammar gives for it, and a number of
too many digits is what the reader refuses among such texts. -/

namespace DateSpan.Expr

open Text

theorem readAll_of_value {cs rest : List Char} {v : Value} (h : value cs = some (v, rest)) :
    readAll cs =
      if hasLongNumber (cs.take (cs.length - (alternatives rest).2.length)) then .error .longNumber
      else if skipBlank (alternatives rest).2 = [] then .ok ⟨v, (alternatives rest).1⟩
      else .error (.mismatch (.at cs (alternatives rest).2 .endOfText)) := by
  simp only [readAll, h]

/-- What was read when the list reader stops: a row of words, of which the taken text has the long
numbers. -/
theorem row_of_value {cs rest : List Char} {v : Value} (h : value cs = some (v, rest)) :
    ∃ ts ls tail, Values.Form (v :: (alternatives rest).1) ts ∧ Words ts ls cs tail ∧
      Leaves tail (alternatives rest).2 ∧
      (hasLongNumber (cs.take (cs.length - (alternatives rest).2.length)) ↔
        ∃ l ∈ ls, LongNumber l) := by
  obtain ⟨us, ms, mid, hv, hw, hleave⟩ := value_sound _ _ _ h
  obtain ⟨ts, ls, tail, hform, hwords, hend⟩ := alternatives_sound (.single hv) hw hleave
  refine ⟨ts, ls, tail, hform, hwords, hend, ?_⟩
  obtain ⟨used, rfl, hused⟩ := hwords.front
  have hscan : Scanned ts ls (used ++ []) [] := hform.scanned (hused []) nofun
  obtain ⟨taken, htaken, hlong⟩ := hscan.longNumber
  obtain rfl := List.append_cancel_right htaken
  rw [hasLongNumber_iff, ← hlong]
  rcases hend with rfl | ⟨rfl, -⟩
  · rw [List.length_append, Nat.add_sub_cancel, List.take_left]
  · rw [List.append_cons, List.length_append, Nat.add_sub_cancel, List.take_left,
      longNumber_append_cons (by decide)]
    simp [not_longNumber_nil]

theorem derivation_of_value {cs rest : List Char} {v : Value} (h : value cs = some (v, rest))
    (hr : Blank (alternatives rest).2) :
    ∃ ts ls, Derivation cs ⟨v, (alternatives rest).1⟩ ts ls ∧
      (hasLongNumber (cs.take (cs.length - (alternatives rest).2.length)) ↔
        ∃ l ∈ ls, LongNumber l) := by
  obtain ⟨ts, ls, tail, hform, hwords, hend, hlong⟩ := row_of_value h
  refine ⟨ts, ls, ⟨⟨_, ?_, hr⟩, hform⟩, hlong⟩
  rcases hend with rfl | ⟨-, hdigit⟩
  · exact hwords
  · cases htail : (alternatives rest).2 with
    | nil =>
      rw [htail] at hdigit
      cases hdigit
    | cons c tail =>
      rw [htail] at hdigit hr
      have hc : (digit? c).isSome := by
        simpa [noDigit, Option.isSome_iff_ne_none] using hdigit
      have hblank := hr c (List.mem_cons_self ..)
      rw [not_isBlank_of_digit hc] at hblank
      cases hblank

/-- A derived text has one derivation, and the readers follow it. -/
theorem Derivation.reads {cs : List Char} {e : Expression} {ts : List Token}
    {ls : List (List Char)} (h : Derivation cs e ts ls) :
    ∃ mid rest, value cs = some (e.first, mid) ∧ alternatives mid = (e.others, rest) ∧
      Scanned ts ls cs rest ∧ Blank rest := by
  obtain ⟨⟨rest, hw, hr⟩, hf⟩ := h
  have hend : ValueEnds rest := by
    intro c hc
    rw [skipBlank_eq_nil.mpr hr] at hc
    cases hc
  have hscan := hf.scanned hw hend
  obtain ⟨v, ws, mid, heq, hvalue, hmore⟩ := hscan.values hf hr
  cases heq
  exact ⟨mid, rest, hvalue, hmore, hscan, hr⟩

theorem Derivation.unique {cs : List Char} {e e' : Expression} {ts ts' : List Token}
    {ls ls' : List (List Char)} (h : Derivation cs e ts ls) (h' : Derivation cs e' ts' ls') :
    e = e' ∧ ts = ts' ∧ ls = ls' := by
  obtain ⟨mid, rest, hvalue, hmore, hscan, hr⟩ := h.reads
  obtain ⟨mid', rest', hvalue', hmore', hscan', hr'⟩ := h'.reads
  rw [hvalue] at hvalue'
  obtain ⟨hfirst, rfl⟩ := Prod.mk.inj (Option.some.inj hvalue')
  rw [hmore] at hmore'
  obtain ⟨hothers, -⟩ := Prod.mk.inj hmore'
  refine ⟨?_, hscan.unique hscan' hr hr'⟩
  cases e
  cases e'
  simp_all

theorem readAll_eq_ok_iff {cs : List Char} {e : Expression} :
    readAll cs = .ok e ↔ ∃ ts ls, Derivation cs e ts ls ∧ ∀ l ∈ ls, ¬ LongNumber l := by
  constructor
  · intro h
    cases hvalue : value cs with
    | none =>
      rw [readAll, hvalue] at h
      cases h
    | some x =>
      obtain ⟨v, rest⟩ := x
      rw [readAll_of_value hvalue] at h
      split at h
      · cases h
      · rename_i hshort
        split at h
        · rename_i hblank
          obtain ⟨ts, ls, hder, hlong⟩ := derivation_of_value hvalue (skipBlank_eq_nil.mp hblank)
          cases h
          rw [hlong] at hshort
          exact ⟨ts, ls, hder, fun l hl hlong => hshort ⟨l, hl, hlong⟩⟩
        · cases h
  · rintro ⟨ts, ls, hder, hshort⟩
    obtain ⟨mid, rest, hvalue, hmore, hscan, hr⟩ := hder.reads
    obtain ⟨used, hused, hlong⟩ := hscan.longNumber
    have htake : hasLongNumber (cs.take (cs.length - rest.length)) = false := by
      rw [hused, List.length_append, Nat.add_sub_cancel, List.take_left, ← Bool.not_eq_true,
        hasLongNumber_iff, hlong]
      rintro ⟨l, hl, hlong⟩
      exact hshort l hl hlong
    rw [readAll_of_value hvalue, hmore]
    simp [htake, skipBlank_eq_nil.mpr hr]

/-- A text is refused for a long number just when it starts with values that have one. -/
theorem readAll_eq_longNumber_iff {cs : List Char} :
    readAll cs = .error .longNumber ↔
      ∃ (e : Expression) (ts : _) (ls : _) (rest : _), Values.Form e.values ts ∧
        Words ts ls cs rest ∧ ∃ l ∈ ls, LongNumber l := by
  constructor
  · intro h
    cases hvalue : value cs with
    | none =>
      rw [readAll, hvalue] at h
      cases h
    | some x =>
      obtain ⟨v, rest⟩ := x
      rw [readAll_of_value hvalue] at h
      split at h
      · rename_i hlong
        obtain ⟨ts, ls, tail, hform, hwords, -, hiff⟩ := row_of_value hvalue
        exact ⟨⟨v, (alternatives rest).1⟩, ts, ls, tail, hform, hwords, hiff.mp hlong⟩
      · split at h <;> cases h
  · rintro ⟨e, ts, ls, rest, hform, hwords, l, hl, hlong⟩
    obtain ⟨v, mid, pre, post, hvalue, rfl, hlen⟩ := hform.reaches hwords hl hlong
    rw [readAll_of_value hvalue, if_pos]
    rw [hasLongNumber_iff]
    apply hlong.mono
    have hfront : pre ++ l <+: (pre ++ (l ++ post)).take
        ((pre ++ (l ++ post)).length - (alternatives mid).2.length) := by
      rw [List.prefix_take_iff]
      constructor
      · exact ⟨post, List.append_assoc ..⟩
      · simp only [List.length_append]
        omega
    exact (List.suffix_append pre l).isInfix.trans hfront.isInfix

/-! ## Fronts and tabs -/

/-- Values stand at the front of a text just when some front of it has a derivation. -/
theorem front_derivation_iff {cs : List Char} {e : Expression} {ts : List Token}
    {ls : List (List Char)} :
    (∃ front, front <+: cs ∧ Derivation front e ts ls) ↔
      Values.Form e.values ts ∧ ∃ rest, Words ts ls cs rest := by
  constructor
  · rintro ⟨front, ⟨more, rfl⟩, ⟨rest, hw, -⟩, hf⟩
    obtain ⟨used, rfl, hused⟩ := hw.front
    exact ⟨hf, rest ++ more, by simpa using hused (rest ++ more)⟩
  · rintro ⟨hf, rest, hw⟩
    obtain ⟨used, rfl, hused⟩ := hw.front
    refine ⟨used, List.prefix_append used rest, ⟨[], ?_, nofun⟩, hf⟩
    simpa using hused []

theorem derivation_expandTabs {cs : List Char} {e : Expression} {ts : List Token}
    {ls : List (List Char)} : Derivation (expandTabs cs) e ts ls ↔ Derivation cs e ts ls := by
  constructor
  · rintro ⟨⟨rest, hw, hr⟩, hf⟩
    obtain ⟨column, rest', hw', rfl⟩ := hw.of_expand
    exact ⟨⟨rest', hw', blank_expandFrom.mp hr⟩, hf⟩
  · rintro ⟨⟨rest, hw, hr⟩, hf⟩
    obtain ⟨column, hw'⟩ := hw.expand 0
    exact ⟨⟨_, hw', blank_expandFrom.mpr hr⟩, hf⟩

theorem front_expandTabs {cs : List Char} {e : Expression} {ts : List Token}
    {ls : List (List Char)} :
    (∃ front, front <+: expandTabs cs ∧ Derivation front e ts ls) ↔
      ∃ front, front <+: cs ∧ Derivation front e ts ls := by
  rw [front_derivation_iff, front_derivation_iff]
  apply and_congr_right
  intro _
  constructor
  · rintro ⟨rest, hw⟩
    obtain ⟨column, rest', hw', -⟩ := hw.of_expand
    exact ⟨rest', hw'⟩
  · rintro ⟨rest, hw⟩
    obtain ⟨column, hw'⟩ := hw.expand 0
    exact ⟨_, hw'⟩

/-- A front of the text has a derivation in which a number has too many digits. -/
def LongFront (cs : List Char) : Prop :=
  ∃ front e ts ls, front <+: cs ∧ Derivation front e ts ls ∧ ∃ l ∈ ls, LongNumber l

theorem read_eq_ok_iff {s : String} {e : Expression} :
    read s = .ok e ↔ ∃ ts ls, Derivation s.toList e ts ls ∧ ∀ l ∈ ls, ¬ LongNumber l := by
  rw [read, readAll_eq_ok_iff]
  simp only [derivation_expandTabs]

theorem read_eq_longNumber_iff {s : String} :
    read s = .error .longNumber ↔ LongFront s.toList := by
  rw [read, readAll_eq_longNumber_iff]
  constructor
  · rintro ⟨e, ts, ls, rest, hf, hw, hlong⟩
    obtain ⟨front, hfront, hder⟩ := front_expandTabs.mp (front_derivation_iff.mpr ⟨hf, rest, hw⟩)
    exact ⟨front, e, ts, ls, hfront, hder, hlong⟩
  · rintro ⟨front, e, ts, ls, hfront, hder, hlong⟩
    obtain ⟨hf, rest, hw⟩ := front_derivation_iff.mp (front_expandTabs.mpr ⟨front, hfront, hder⟩)
    exact ⟨e, ts, ls, rest, hf, hw, hlong⟩

/-- A written duration with blanks around it has a derivation. -/
theorem DurationText.derivation {a : Amounts} {l before after : List Char} (h : DurationText a l)
    (hbefore : Blank before) (hafter : Blank after) :
    Derivation (before ++ (l ++ after)) ⟨.duration a, []⟩ [.duration a] [l] :=
  ⟨⟨after, .cons hbefore (.duration h) .nil, hafter⟩, .single .duration⟩

theorem Expression.node_of_single {e : Expression} {v : Value} (h : e.values = [v]) :
    e.node = .node (.single v.node) := by
  obtain ⟨first, others⟩ := e
  obtain ⟨rfl, rfl⟩ := List.cons.inj h
  rfl

theorem Expression.node_of_several {e : Expression} (h : 1 < e.values.length) :
    e.node = .node (.anyOf (.tuple (e.values.map Value.node))) := by
  obtain ⟨first, others⟩ := e
  cases others with
  | nil => exact absurd h (by simp [Expression.values])
  | cons v vs => rfl

end DateSpan.Expr

namespace DateSpan.Policy

open DateSpan.Expr Text

variable {p : Policy}

theorem read_eq (hp : p.Valid) (s : String) : p.read s = Settings.readText s := by
  obtain ⟨⟨b, hb⟩, -⟩ := hp
  rw [read, hb]
  rfl

theorem read_eq_ok_iff (hp : p.Valid) {s : String} {e : Expression} :
    p.read s = .ok e ↔ ∃ ts ls, Derivation s.toList e ts ls ∧ ∀ l ∈ ls, ¬ LongNumber l := by
  rw [read_eq hp, Settings.readText, ← Expr.read_eq_ok_iff]
  split <;> simp_all

theorem read_eq_longNumber_iff (hp : p.Valid) {s : String} :
    p.read s = .error .longNumber ↔ LongFront s.toList := by
  rw [read_eq hp, Settings.readText, ← Expr.read_eq_longNumber_iff]
  split <;> simp_all

theorem read_error (hp : p.Valid) {s : String} {f : Fault} (h : p.read s = .error f) :
    f = .longNumber ∨ ∃ m, f = .syntaxAt s m := by
  rw [read_eq hp, Settings.readText] at h
  split at h
  · cases h
  · cases h
    exact .inr ⟨_, rfl⟩
  · cases h
    exact .inl rfl

theorem plain_valid : plain.Valid :=
  ⟨⟨_, rfl⟩, ⟨_, rfl⟩, ⟨_, rfl⟩⟩

/-- What a text is read as. It is read just when the grammar derives it without a number of too many
digits, and then as the one tree that it has; a front with such a number is refused for the number,
and every other text for its syntax. -/
theorem read_derivation (hp : p.Valid) (s : String) :
    (∀ e, p.read s = .ok e ↔ ∃ ts ls, Derivation s.toList e ts ls ∧ ∀ l ∈ ls, ¬ LongNumber l) ∧
    (∀ e e' ts ts' ls ls', Derivation s.toList e ts ls → Derivation s.toList e' ts' ls' →
      e = e' ∧ ts = ts' ∧ ls = ls') ∧
    (∀ e, p.read s = .ok e →
      (∀ v, e.values = [v] → e.node = .node (.single v.node)) ∧
      (1 < e.values.length → e.node = .node (.anyOf (.tuple (e.values.map Value.node))))) ∧
    (∀ v a b, Value.Form v [.brief a, .dots, .brief b] →
      v.node = .node (.fullyBounded (.node (.lowerBounded a.node .ge))
        (.node (.upperBounded b.node .le)))) ∧
    (p.read s = .error .longNumber ↔ LongFront s.toList) ∧
    ∀ f, p.read s = .error f → f ≠ .longNumber → f.classOf = .parse ∧ ∃ m, f = .syntaxAt s m := by
  refine ⟨fun e => read_eq_ok_iff hp, fun _ _ _ _ _ _ h h' => h.unique h', ?_, ?_,
    read_eq_longNumber_iff hp, ?_⟩
  · intro e _
    exact ⟨fun _ => Expression.node_of_single, Expression.node_of_several⟩
  · intro v a b h
    cases h
    rfl
  · intro f hf hne
    rcases read_error hp hf with rfl | ⟨m, rfl⟩
    · exact absurd rfl hne
    · exact ⟨rfl, m, rfl⟩

/-- The year count one, with zeros before it. -/
theorem derivation_zeros (k : Nat) :
    Derivation ('P' :: (List.replicate k '0' ++ ['1', 'Y']))
      ⟨.duration ⟨some 1, none, none, none, none, none⟩, []⟩
      [.duration ⟨some 1, none, none, none, none, none⟩]
      ['P' :: (List.replicate k '0' ++ ['1', 'Y'])] := by
  have hzero : digit? '0' = some 0 := by decide
  have hone : digit? '1' = some 1 := by decide
  have hnum : Numeral (List.replicate k '0' ++ ['1']) 1 :=
    ⟨List.replicate k 0 ++ [1], by simp [hzero, hone], by rw [ofDigits_zeros]; rfl⟩
  have hyears : CountText 'Y' (some 1) (List.replicate k '0' ++ ['1', 'Y']) := by
    have h : CountText 'Y' (some 1) ((List.replicate k '0' ++ ['1']) ++ ['Y']) :=
      .written (by simp) hnum
    rwa [List.append_assoc] at h
  have hdur := DurationText.written hyears .absent .absent .absent (.inl rfl)
  simp only [List.append_nil] at hdur
  have hblank : Blank [] := nofun
  have hder := hdur.derivation hblank hblank
  rwa [List.append_nil] at hder

theorem longNumber_zeros {k : Nat} (hk : maxDigits ≤ k) :
    LongNumber ('P' :: (List.replicate k '0' ++ ['1', 'Y'])) := by
  refine ⟨List.replicate k '0' ++ ['1'], ⟨['P'], ['Y'], by simp⟩, ?_, ?_⟩
  · intro c hc
    rcases List.mem_append.mp hc with hc | hc
    · rw [List.eq_of_mem_replicate hc]
      decide
    · rw [List.mem_singleton.mp hc]
      decide
  · simp only [List.length_append, List.length_replicate, List.length_singleton]
    omega

/-- A count of one written with 4300 zeros before it is derived and yet refused. -/
theorem read_zeros :
    plain.Valid ∧
      Derives ('P' :: (List.replicate 4300 '0' ++ ['1', 'Y']))
        ⟨.duration ⟨some 1, none, none, none, none, none⟩, []⟩ ∧
      plain.read (String.ofList ('P' :: (List.replicate 4300 '0' ++ ['1', 'Y']))) =
        .error .longNumber := by
  have hder := derivation_zeros 4300
  obtain ⟨-, -, -, -, hlong, -⟩ := read_derivation plain_valid
    (String.ofList ('P' :: (List.replicate 4300 '0' ++ ['1', 'Y'])))
  refine ⟨plain_valid, ⟨_, _, hder⟩, hlong.mpr ?_⟩
  rw [String.toList_ofList]
  exact ⟨_, _, _, _, List.prefix_rfl, hder, _, List.mem_singleton_self _,
    longNumber_zeros (Nat.le_refl 4300)⟩

end DateSpan.Policy
