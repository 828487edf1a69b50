import DateSpan.Proofs.Expr.Reading

/-! Texts with a surplus. What stands before the place where the end of a text was expected is read by
itself, unless it ends in a `T` that was taken for the time of a duration and has no count after it. -/

namespace DateSpan.Expr

open Text

/-! ## Last characters -/

/-- The text does not end in a `T`. -/
def Timeless (cs : List Char) : Prop :=
  cs.getLast? ≠ some 'T'

theorem timeless_nil : Timeless [] := nofun

theorem Timeless.append {cs ds : List Char} (h : Timeless cs) (h' : Timeless ds) :
    Timeless (cs ++ ds) := by
  unfold Timeless at *
  rw [List.getLast?_append]
  cases hd : ds.getLast? with
  | none => exact h
  | some d => rwa [hd] at h'

theorem Timeless.after {cs : List Char} (h : Timeless cs) (hne : cs ≠ []) (c : Char) :
    Timeless (c :: cs) := by
  unfold Timeless
  rw [List.getLast?_cons_of_ne_nil hne]
  exact h

theorem Timeless.cons {c : Char} (hc : c ≠ 'T') {cs : List Char} (h : Timeless cs) :
    Timeless (c :: cs) := by
  have hfront : Timeless [c] := by simpa [Timeless] using hc
  exact hfront.append h

theorem timeless_of_not_mem {cs : List Char} (h : 'T' ∉ cs) : Timeless cs :=
  fun hlast => h (List.mem_of_getLast? hlast)

theorem Blank.timeless {cs : List Char} (h : Blank cs) : Timeless cs :=
  timeless_of_not_mem fun hmem => absurd (h _ hmem) (by decide)

theorem Numeral.timeless {n : Nat} {cs : List Char} (h : Numeral cs n) : Timeless cs :=
  timeless_of_not_mem fun hmem => absurd (h.isSome_digit? hmem) (by decide)

theorem Places.timeless {w n : Nat} {cs : List Char} (h : Places w n cs) : Timeless cs :=
  Numeral.timeless h.1

theorem BriefText.timeless {b : Brief} {cs : List Char} (h : BriefText b cs) : Timeless cs := by
  have htime : ∀ {h hs rest}, Places 2 h hs → Timeless rest → Timeless ('T' :: (hs ++ rest)) := by
    intro h hs rest hh hrest
    obtain ⟨c, hs', rfl, -⟩ := hh.cons
    exact (hh.timeless.append hrest).after nofun 'T'
  cases h with
  | year hy => exact hy.timeless
  | month hy hmo => exact hy.timeless.append (.cons (by decide) hmo.timeless)
  | day hy hmo hd =>
    exact hy.timeless.append (.cons (by decide) (hmo.timeless.append (.cons (by decide) hd.timeless)))
  | hour hy hmo hd hh =>
    have hhour := htime hh timeless_nil
    rw [List.append_nil] at hhour
    exact hy.timeless.append (.cons (by decide) (hmo.timeless.append (.cons (by decide)
      (hd.timeless.append hhour))))
  | minute hy hmo hd hh hmi =>
    exact hy.timeless.append (.cons (by decide) (hmo.timeless.append (.cons (by decide)
      (hd.timeless.append (htime hh (.cons (by decide) hmi.timeless))))))
  | @second _ _ _ _ _ _ _ _ _ _ _ _ zone hy hmo hd hh hmi hs hz =>
    have hzone : Timeless zone := by
      rcases hz with rfl | rfl
      · exact timeless_nil
      · exact .cons (by decide) timeless_nil
    exact hy.timeless.append (.cons (by decide) (hmo.timeless.append (.cons (by decide)
      (hd.timeless.append (htime hh (.cons (by decide) (hmi.timeless.append (.cons (by decide)
        (hs.timeless.append hzone)))))))))
  | compact hy hmo hd hh hmi hs =>
    exact hy.timeless.append (hmo.timeless.append (hd.timeless.append (hh.timeless.append
      (hmi.timeless.append hs.timeless))))

theorem CountText.timeless {mark : Char} (hm : mark ≠ 'T') {k : Option Nat} {cs : List Char}
    (h : CountText mark k cs) : Timeless cs := by
  cases h with
  | absent => exact timeless_nil
  | written _ hnum => exact (Numeral.timeless hnum).append (.cons hm timeless_nil)

/-- The counts after a `T` are not all absent, so that the `T` is not the end. -/
theorem TimeText.timeless {h m s : Option Nat} {cs : List Char} (ht : TimeText h m s cs) :
    Timeless cs := by
  have hlong := ht.two_le
  cases ht with
  | absent => exact timeless_nil
  | @written _ _ _ hs ms ss hh hm hsec hany =>
    have hcounts : Timeless (hs ++ (ms ++ ss)) :=
      (hh.timeless (by decide)).append ((hm.timeless (by decide)).append (hsec.timeless (by decide)))
    refine hcounts.after ?_ 'T'
    rintro hnil
    have := hlong hany
    rw [hnil] at this
    simp at this

theorem DurationText.timeless {a : Amounts} {cs : List Char} (h : DurationText a cs) :
    Timeless cs := by
  cases h with
  | written hy hmo hd ht =>
    exact .cons (by decide) ((hy.timeless (by decide)).append ((hmo.timeless (by decide)).append
      ((hd.timeless (by decide)).append ht.timeless)))

theorem Token.Spelled.timeless {t : Token} {l : List Char} (h : t.Spelled l) : Timeless l := by
  cases h with
  | brief h => exact h.timeless
  | duration h => exact h.timeless
  | _ => exact timeless_of_not_mem (by decide)

theorem Words.timeless {ts : List Token} {ls : List (List Char)} {cs rest : List Char}
    (h : Words ts ls cs rest) (hr : Timeless rest) : Timeless cs := by
  induction h with
  | nil => exact hr
  | cons hb hs _ ih => exact hb.timeless.append (hs.timeless.append (ih hr))

theorem Derivation.timeless {cs : List Char} {e : Expression} {ts : List Token}
    {ls : List (List Char)} (h : Derivation cs e ts ls) : Timeless cs := by
  obtain ⟨rest, hw, hr⟩ := h.words
  exact hw.timeless hr.timeless

/-! ## Places -/

theorem Mismatch.ofNoValue_expected (cs : List Char) :
    (Mismatch.ofNoValue cs).expected ≠ .endOfText := by
  unfold ofNoValue
  split <;> exact nofun

theorem not_isBlank_of_skipBlank {cs ahead : List Char} {c : Char} (h : skipBlank cs = c :: ahead) :
    isBlank c = false := by
  have hfind : cs.find? (fun d => !isBlank d) = some c := by
    rw [List.find?_not_eq_head?_dropWhile]
    exact congrArg List.head? h
  simpa using List.find?_some hfind

/-- The mismatch stands after the blanks that the rest starts with. -/
theorem Mismatch.at_append (used rest : List Char) (expected : Expected) :
    Mismatch.at (used ++ rest) rest expected =
      ⟨expected, placeAfter (used ++ rest.takeWhile isBlank), (skipBlank rest).head?⟩ := by
  have htext : used ++ rest = (used ++ rest.takeWhile isBlank) ++ skipBlank rest := by
    rw [List.append_assoc, append_skipBlank]
  have htake : (used ++ rest).take ((used ++ rest).length - (skipBlank rest).length) =
      used ++ rest.takeWhile isBlank := by
    rw [htext, List.length_append, Nat.add_sub_cancel, List.take_left]
  rw [Mismatch.at, htake]

/-- Where the end of a text was expected, words without long numbers go before. -/
theorem row_of_endOfText {cs : List Char} {m : Mismatch} (h : readAll cs = .error (.mismatch m))
    (hend : m.expected = .endOfText) :
    ∃ (e : Expression) (ts : List Token) (ls : List (List Char)) (tail rest : List Char),
      Values.Form e.values ts ∧ Words ts ls cs tail ∧ (∀ l ∈ ls, ¬ LongNumber l) ∧
      Leaves tail rest ∧ skipBlank rest ≠ [] ∧ m = .at cs rest .endOfText := by
  cases hvalue : value cs with
  | none =>
    rw [readAll, hvalue] at h
    cases h
    exact absurd hend (Mismatch.ofNoValue_expected cs)
  | some x =>
    obtain ⟨v, rest⟩ := x
    obtain ⟨ts, ls, tail, hform, hwords, hleave, hlong⟩ := row_of_value hvalue
    rw [readAll_of_value hvalue] at h
    split at h
    · cases h
    · rename_i hshort
      rw [hlong] at hshort
      split at h
      · cases h
      · rename_i hskip
        cases h
        exact ⟨⟨v, _⟩, ts, ls, tail, _, hform, hwords, fun l hl hl' => hshort ⟨l, hl, hl'⟩, hleave,
          hskip, rfl⟩

/-- The end of a text was expected at a character of it. What was read before the character and its
blanks is all of the text before it, but for a `T` before a digit. -/
structure Surplus (cs : List Char) (m : Mismatch) (front used : List Char) (c : Char) : Prop where
  text : ∃ ahead, cs = front ++ c :: ahead
  notBlank : isBlank c = false
  mismatch : m = ⟨.endOfText, placeAfter front, some c⟩
  front : front = used ∨ front = used ++ ['T'] ∧ (digit? c).isSome

theorem surplus_of_endOfText {cs : List Char} {m : Mismatch} (h : readAll cs = .error (.mismatch m))
    (hend : m.expected = .endOfText) :
    ∃ (front used : List Char) (c : Char) (e : Expression) (ts : List Token) (ls : List (List Char)),
      Surplus cs m front used c ∧ Derivation used e ts ls ∧ ∀ l ∈ ls, ¬ LongNumber l := by
  obtain ⟨e, ts, ls, tail, rest, hform, hwords, hshort, hleave, hskip, rfl⟩ :=
    row_of_endOfText h hend
  obtain ⟨used, rfl, hused⟩ := hwords.front
  obtain ⟨c, ahead, hahead⟩ := List.exists_cons_of_ne_nil hskip
  have hc := not_isBlank_of_skipBlank hahead
  rcases hleave with rfl | ⟨rfl, hdigit⟩
  · have htext : used ++ tail = (used ++ tail.takeWhile isBlank) ++ c :: ahead := by
      rw [List.append_assoc, ← hahead, append_skipBlank]
    have hplace : Mismatch.at (used ++ tail) tail .endOfText =
        ⟨.endOfText, placeAfter (used ++ tail.takeWhile isBlank), some c⟩ := by
      rw [Mismatch.at_append, hahead, List.head?_cons]
    exact ⟨_, _, c, e, ts, ls, ⟨⟨ahead, htext⟩, hc, hplace, .inl rfl⟩,
      ⟨⟨_, hused _, blank_takeWhile tail⟩, hform⟩, hshort⟩
  · cases rest with
    | nil => cases hdigit
    | cons d rest =>
      have hd : (digit? d).isSome := by
        simpa [noDigit, Option.isSome_iff_ne_none] using hdigit
      have hblank := not_isBlank_of_digit hd
      have hnone : (d :: rest).takeWhile isBlank = [] :=
        List.takeWhile_cons_of_neg (by simp [hblank])
      have hplace : Mismatch.at (used ++ 'T' :: d :: rest) (d :: rest) .endOfText =
          ⟨.endOfText, placeAfter (used ++ ['T']), some d⟩ := by
        rw [List.append_cons, Mismatch.at_append, hnone, List.append_nil, skipBlank_cons hblank,
          List.head?_cons]
      have hwords : Words ts ls used [] := by simpa using hused []
      exact ⟨_, used, d, e, ts, ls, ⟨⟨rest, by simp⟩, hblank, hplace, .inr ⟨rfl, hd⟩⟩,
        ⟨⟨[], hwords, List.forall_mem_nil _⟩, hform⟩, hshort⟩

end DateSpan.Expr

namespace DateSpan.Policy

open DateSpan.Expr Text

variable {p : Policy}

theorem read_eq_mismatch (hp : p.Valid) {s : String} {m : Mismatch} :
    p.read s = .error (.syntaxAt s m) ↔ readAll (expandTabs s.toList) = .error (.mismatch m) := by
  rw [read_eq hp, Settings.readText, Expr.read]
  split <;> simp_all

theorem read_of_derivation (hp : p.Valid) {cs : List Char} {e : Expression} {ts : List Token}
    {ls : List (List Char)} (h : Derivation cs e ts ls) (hshort : ∀ l ∈ ls, ¬ LongNumber l) :
    p.read (String.ofList cs) = .ok e := by
  rw [read_eq_ok_iff hp, String.toList_ofList]
  exact ⟨ts, ls, h, hshort⟩

theorem timeless_of_read (hp : p.Valid) {cs : List Char} {e : Expression}
    (h : p.read (String.ofList cs) = .ok e) : Timeless cs := by
  rw [read_eq_ok_iff hp, String.toList_ofList] at h
  obtain ⟨ts, ls, hder, -⟩ := h
  exact hder.timeless

/-- Where the end of a text was expected, at a place counted with the tabs expanded, the text before it is
read by itself unless it ends in a `T`. A `T` that it ends in stands between a text that is read and a
digit. -/
theorem read_before_surplus (hp : p.Valid) {s : String} {m : Mismatch}
    (h : p.read s = .error (.syntaxAt s m)) (hend : m.expected = .endOfText) :
    let front := (expandTabs s.toList).take m.place.offset
    m.place = placeAfter front ∧
    (∃ c, (expandTabs s.toList)[m.place.offset]? = some c ∧ m.found = some c ∧ isBlank c = false) ∧
    ((∃ e, p.read (String.ofList front) = .ok e) ↔ front.getLast? ≠ some 'T') ∧
    ∀ used, front = used ++ ['T'] →
      (∃ e, p.read (String.ofList used) = .ok e) ∧ ∃ c, m.found = some c ∧ (digit? c).isSome := by
  obtain ⟨front, used, c, e, ts, ls, ⟨⟨ahead, htext⟩, hc, rfl, hfront⟩, hder, hshort⟩ :=
    surplus_of_endOfText ((read_eq_mismatch hp).mp h) hend
  have hoffset : (placeAfter front).offset = front.length := rfl
  have hread := read_of_derivation hp hder hshort
  simp only [htext, hoffset, List.take_left]
  refine ⟨trivial, ⟨c, by simp, rfl, hc⟩, ⟨fun ⟨e', he'⟩ => timeless_of_read hp he', fun hlast => ?_⟩,
    fun used' hused' => ?_⟩
  · rcases hfront with rfl | ⟨rfl, -⟩
    · exact ⟨e, hread⟩
    · exact absurd List.getLast?_concat hlast
  · rcases hfront with rfl | ⟨rfl, hdigit⟩
    · exact absurd (hused' ▸ List.getLast?_concat) hder.timeless
    · exact ⟨⟨e, List.append_cancel_right hused' ▸ hread⟩, c, rfl, hdigit⟩

/-- Before a surplus after a tab the blanks are read too. A `T` before a digit is taken with the duration
before it, and the two are not read without the digit. -/
theorem read_before_surplus_time :
    plain.Valid ∧
      plain.read "2020\tx" = .error (.syntaxAt "2020\tx" ⟨.endOfText, ⟨8, 1, 9⟩, some 'x'⟩) ∧
      (∃ e, plain.read "2020    " = .ok e) ∧
      plain.read "P1YT5" = .error (.syntaxAt "P1YT5" ⟨.endOfText, ⟨4, 1, 5⟩, some '5'⟩) ∧
      (¬ ∃ e, plain.read "P1YT" = .ok e) ∧ ∃ e, plain.read "P1Y" = .ok e := by
  have hyear : plain.read "2020\tx" =
      .error (.syntaxAt "2020\tx" ⟨.endOfText, ⟨8, 1, 9⟩, some 'x'⟩) := by
    have hvalue : value (expandTabs "2020\tx".toList) =
        some (.brief (.year 2020), "    x".toList) := by decide
    have hmore : alternative "    x".toList = none := by decide
    rw [read_eq_mismatch plain_valid, readAll_of_value hvalue, alternatives_of_none hmore]
    decide
  have htime : plain.read "P1YT5" =
      .error (.syntaxAt "P1YT5" ⟨.endOfText, ⟨4, 1, 5⟩, some '5'⟩) := by
    have hvalue : value (expandTabs "P1YT5".toList) =
        some (.duration ⟨some 1, none, none, none, none, none⟩, ['5']) := by decide
    have hmore : alternative ['5'] = none := by decide
    rw [read_eq_mismatch plain_valid, readAll_of_value hvalue, alternatives_of_none hmore]
    decide
  obtain ⟨-, -, hfront, -⟩ := read_before_surplus plain_valid hyear rfl
  obtain ⟨-, -, hlost, hused⟩ := read_before_surplus plain_valid htime rfl
  refine ⟨plain_valid, hyear, hfront.mpr (by decide), htime, ?_, ?_⟩
  · intro hread
    exact hlost.mp hread (by decide)
  · exact (hused ['P', '1', 'Y'] (by decide)).1

end DateSpan.Policy
