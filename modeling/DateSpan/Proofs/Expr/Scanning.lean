import DateSpan.Proofs.Expr.Tokens
import Mathlib.Data.List.TakeWhile
import Mathlib.Tactic.ByContra

/-! Texts as rows of tokens. Where the words of a text stand in the form of values, each is read
whole as its token, so the row is the only one. -/

namespace DateSpan.Expr

open Text

/-! ## Blanks -/

theorem skipBlank_append {blanks : List Char} (h : Blank blanks) (cs : List Char) :
    skipBlank (blanks ++ cs) = skipBlank cs := by
  induction blanks with
  | nil => rfl
  | cons c blanks ih =>
    have hc : isBlank c := h c (List.mem_cons_self ..)
    have hrest : Blank blanks := fun b hb => h b (List.mem_cons_of_mem _ hb)
    simpa [skipBlank, List.dropWhile_cons, hc] using ih hrest

theorem skipBlank_cons {c : Char} (h : isBlank c = false) (cs : List Char) :
    skipBlank (c :: cs) = c :: cs := by
  simp [skipBlank, h]

theorem skipBlank_eq_nil {cs : List Char} : skipBlank cs = [] ↔ Blank cs :=
  List.dropWhile_eq_nil_iff

theorem blank_takeWhile (cs : List Char) : Blank (cs.takeWhile isBlank) :=
  fun _ hc => List.mem_takeWhile_imp hc

theorem append_skipBlank (cs : List Char) : cs.takeWhile isBlank ++ skipBlank cs = cs :=
  List.takeWhile_append_dropWhile

theorem isBlank_iff {c : Char} : isBlank c ↔ c = ' ' ∨ c = '\t' ∨ c = '\n' ∨ c = '\r' := by
  simp [isBlank, or_assoc]

theorem not_isBlank_of_digit {c : Char} (h : (digit? c).isSome) : isBlank c = false := by
  by_contra hc
  rw [Bool.not_eq_false, isBlank_iff] at hc
  rcases hc with rfl | rfl | rfl | rfl <;> exact absurd h (by decide)

theorem Token.Opens.not_isBlank {t : Token} {c : Char} (h : t.Opens c) : isBlank c = false := by
  cases t with
  | brief => exact not_isBlank_of_digit h
  | side s => cases s <;> exact h ▸ (by decide)
  | _ => exact h ▸ (by decide)

theorem Token.Spelled.skipBlank {t : Token} {l : List Char} (h : t.Spelled l) {blanks : List Char}
    (hb : Blank blanks) (cs : List Char) : skipBlank (blanks ++ (l ++ cs)) = l ++ cs := by
  obtain ⟨c, l', rfl, hc⟩ := h.opens
  rw [skipBlank_append hb, List.cons_append, skipBlank_cons hc.not_isBlank]

/-! ## Rows of words -/

theorem Words.append {ts us : List Token} {ls ms : List (List Char)} {cs mid rest : List Char}
    (h₁ : Words ts ls cs mid) (h₂ : Words us ms mid rest) :
    Words (ts ++ us) (ls ++ ms) cs rest := by
  induction h₁ with
  | nil => exact h₂
  | cons hb hs _ ih => exact .cons hb hs (ih h₂)

theorem Words.split {ts us : List Token} {ls : List (List Char)} {cs rest : List Char}
    (h : Words (ts ++ us) ls cs rest) :
    ∃ ls₁ ls₂ mid, ls = ls₁ ++ ls₂ ∧ Words ts ls₁ cs mid ∧ Words us ls₂ mid rest := by
  induction ts generalizing ls cs with
  | nil => exact ⟨[], ls, cs, rfl, .nil, h⟩
  | cons t ts ih =>
    cases h with
    | cons hb hs htail =>
      obtain ⟨ls₁, ls₂, mid, rfl, h₁, h₂⟩ := ih htail
      exact ⟨_ :: ls₁, ls₂, mid, rfl, .cons hb hs h₁, h₂⟩

/-- A word may stand without blanks before it. -/
theorem Words.front_cons {t : Token} {l tail rest : List Char} {ts : List Token}
    {ls : List (List Char)} (hs : t.Spelled l) (h : Words ts ls tail rest) :
    Words (t :: ts) (l :: ls) (l ++ tail) rest := by
  have hblank : Blank [] := nofun
  have hw := Words.cons hblank hs h
  rwa [List.nil_append] at hw

theorem Blank.append {cs ds : List Char} (hc : Blank cs) (hd : Blank ds) : Blank (cs ++ ds) := by
  intro c h
  exact (List.mem_append.mp h).elim (hc c) (hd c)

theorem Blank.singleton {c : Char} (h : isBlank c) : Blank [c] :=
  List.forall_mem_singleton.mpr h

/-- More blanks may stand before a word. -/
theorem Words.blanks {before cs rest : List Char} {t : Token} {ts : List Token}
    {ls : List (List Char)} (hb : Blank before) (h : Words (t :: ts) ls cs rest) :
    Words (t :: ts) ls (before ++ cs) rest := by
  cases h with
  | cons hblank hs hw =>
    rw [← List.append_assoc]
    exact .cons (hb.append hblank) hs hw

theorem Words.blank {c : Char} (hc : isBlank c) {t : Token} {ts : List Token}
    {ls : List (List Char)} {cs rest : List Char} (h : Words (t :: ts) ls cs rest) :
    Words (t :: ts) ls (c :: cs) rest :=
  Words.blanks (.singleton hc) h

theorem Words.of_skipBlank {t : Token} {l cs rest : List Char} (hs : t.Spelled l)
    (h : skipBlank cs = l ++ rest) : Words [t] [l] cs rest := by
  rw [← append_skipBlank cs, h]
  exact .cons (blank_takeWhile cs) hs .nil

/-- The words stand at the front of any text with the same front. -/
theorem Words.front {ts : List Token} {ls : List (List Char)} {cs rest : List Char}
    (h : Words ts ls cs rest) :
    ∃ used, cs = used ++ rest ∧ ∀ rest', Words ts ls (used ++ rest') rest' := by
  induction h with
  | nil => exact ⟨[], rfl, fun _ => .nil⟩
  | @cons blanks t l ts ls tail rest hb hs _ ih =>
    obtain ⟨used, rfl, hused⟩ := ih
    refine ⟨blanks ++ (l ++ used), by simp, ?_⟩
    intro rest'
    rw [List.append_assoc, List.append_assoc]
    exact .cons hb hs (hused rest')

/-- Words that each end where the text no longer goes on with them, so that each is read whole. -/
inductive Scanned : List Token → List (List Char) → List Char → List Char → Prop
  | nil {rest} : Scanned [] [] rest rest
  | cons {blanks t l ts ls tail rest} : Blank blanks → Token.Spelled t l →
      Token.EndsAt t tail → Scanned ts ls tail rest →
      Scanned (t :: ts) (l :: ls) (blanks ++ (l ++ tail)) rest

theorem Scanned.append {ts us : List Token} {ls ms : List (List Char)} {cs mid rest : List Char}
    (h₁ : Scanned ts ls cs mid) (h₂ : Scanned us ms mid rest) :
    Scanned (ts ++ us) (ls ++ ms) cs rest := by
  induction h₁ with
  | nil => exact h₂
  | cons hb hs hr _ ih => exact .cons hb hs hr (ih h₂)

theorem Scanned.next {t : Token} {ts : List Token} {ls : List (List Char)} {cs rest : List Char}
    (h : Scanned (t :: ts) ls cs rest) :
    ∃ tail ls', token readToken cs = some (t, tail) ∧ Scanned ts ls' tail rest := by
  cases h with
  | cons hb hs hend htail =>
    exact ⟨_, _, by rw [token, hs.skipBlank hb, readToken_append hs hend], htail⟩

theorem Token.Spelled.not_blank {t : Token} {l : List Char} (h : t.Spelled l) {blanks : List Char}
    (hb : Blank blanks) (cs : List Char) : ¬ Blank (blanks ++ (l ++ cs)) := by
  intro hall
  have hskip := skipBlank_eq_nil.mpr hall
  obtain ⟨c, l', rfl, -⟩ := h.opens
  rw [h.skipBlank hb] at hskip
  cases hskip

/-- A text is scanned in one way only. -/
theorem Scanned.unique {ts ts' : List Token} {ls ls' : List (List Char)} {cs rest rest' : List Char}
    (h : Scanned ts ls cs rest) (h' : Scanned ts' ls' cs rest') (hr : Blank rest)
    (hr' : Blank rest') : ts = ts' ∧ ls = ls' := by
  induction h generalizing ts' ls' with
  | nil =>
    cases h' with
    | nil => exact ⟨rfl, rfl⟩
    | cons hb hs => exact absurd hr (hs.not_blank hb _)
  | @cons blanks t l ts ls tail rest hb hs hend _ ih =>
    generalize htext : blanks ++ (l ++ tail) = text at h'
    cases h' with
    | nil => exact absurd (htext ▸ hr') (hs.not_blank hb _)
    | @cons blanks' t' l' ts' ls' tail' _ hb' hs' hend' htail' =>
      have hskip := congrArg skipBlank htext
      rw [hs.skipBlank hb, hs'.skipBlank hb'] at hskip
      have hread := readToken_append hs hend
      rw [hskip, readToken_append hs' hend'] at hread
      cases hread
      obtain ⟨rfl, rfl⟩ := ih htail' hr
      exact ⟨rfl, by rw [List.append_cancel_right hskip]⟩

/-! ## Ends -/

/-- A sign between values, or the end of the text, stands after any blanks. -/
def ValueEnds (rest : List Char) : Prop :=
  ∀ c, (skipBlank rest).head? = some c → c = '|'

/-- The character ends a date or a duration. -/
structure Parts (c : Char) : Prop where
  noDigit : digit? c = none
  noMark : c ≠ '-' ∧ c ≠ 'T' ∧ c ≠ ':' ∧ c ≠ 'Z'

theorem parts_of_isBlank {c : Char} (h : isBlank c) : Parts c := by
  rw [isBlank_iff] at h
  rcases h with rfl | rfl | rfl | rfl <;> exact ⟨by decide, by decide⟩

theorem briefEnds_of_parts {rest : List Char} (h : ∀ c, rest.head? = some c → Parts c) :
    BriefEnds rest := by
  cases rest with
  | nil => exact ⟨rfl, ⟨rfl, rfl, rfl⟩, rfl⟩
  | cons c rest =>
    obtain ⟨hdigit, hminus, htime, hcolon, hzone⟩ := h c rfl
    refine ⟨by simp [noDigit, hdigit], ⟨?_, ?_, ?_⟩, ?_⟩
    · exact field_eq_none_of_ne hminus rest
    · exact field_eq_none_of_ne htime rest
    · exact field_eq_none_of_ne hcolon rest
    · unfold dropZone
      split
      · rename_i heq
        cases heq
        exact absurd rfl hzone
      · rfl

theorem durationEnds_of_parts {rest : List Char} (h : ∀ c, rest.head? = some c → Parts c) :
    DurationEnds rest := by
  cases rest with
  | nil => exact ⟨rfl, nofun⟩
  | cons c rest =>
    obtain ⟨hdigit, -, htime, -⟩ := h c rfl
    exact ⟨by simp [noDigit, hdigit], by simpa using htime⟩

/-- The first character of a text that starts with a word is a blank or opens the token. -/
theorem head?_word {t : Token} {blanks l : List Char} (hb : Blank blanks) (hs : t.Spelled l)
    {cs : List Char} {c : Char} (h : (blanks ++ (l ++ cs)).head? = some c) :
    isBlank c ∨ t.Opens c := by
  cases blanks with
  | nil =>
    obtain ⟨c', l', rfl, hc⟩ := hs.opens
    cases h
    exact .inr hc
  | cons b blanks =>
    cases h
    exact .inl (hb c (List.mem_cons_self ..))

theorem ValueEnds.parts {rest : List Char} (h : ValueEnds rest) {c : Char}
    (hc : rest.head? = some c) : Parts c := by
  cases rest with
  | nil => cases hc
  | cons b rest =>
    obtain rfl : b = c := Option.some.inj hc
    by_cases hb : isBlank b
    · exact parts_of_isBlank hb
    · obtain rfl : b = '|' := h b (by rw [skipBlank_cons (by simpa using hb)]; rfl)
      exact ⟨by decide, by decide⟩

/-- Tokens that may follow a date end it. -/
def Token.EndsBrief : Token → Prop
  | .upperSign _ | .comma | .dots | .side .after => True
  | _ => False

theorem Token.Opens.parts {t : Token} (ht : t.EndsBrief) {c : Char} (hc : t.Opens c) : Parts c := by
  cases t with
  | upperSign => exact hc ▸ ⟨by decide, by decide⟩
  | comma => exact hc ▸ ⟨by decide, by decide⟩
  | dots => exact hc ▸ ⟨by decide, by decide⟩
  | side s =>
    cases s with
    | after => exact hc ▸ ⟨by decide, by decide⟩
    | before => cases ht
  | _ => cases ht

theorem briefEnds_word {t : Token} (ht : t.EndsBrief) {blanks l : List Char} (hb : Blank blanks)
    (hs : t.Spelled l) (cs : List Char) : BriefEnds (blanks ++ (l ++ cs)) := by
  apply briefEnds_of_parts
  intro c hc
  rcases head?_word hb hs hc with hblank | hopen
  · exact parts_of_isBlank hblank
  · exact hopen.parts ht

/-- A minus ends a date where no digits follow it. -/
theorem briefEnds_minus {blanks more l : List Char} {a : Amounts} (hb : Blank blanks)
    (hb' : Blank more) (hs : (Token.duration a).Spelled l) (cs : List Char) :
    BriefEnds (blanks ++ (['-'] ++ (more ++ (l ++ cs)))) := by
  cases blanks with
  | cons c blanks =>
    apply briefEnds_of_parts
    intro d hd
    cases hd
    exact parts_of_isBlank (hb c (List.mem_cons_self ..))
  | nil =>
    have hdigit : digits 2 (more ++ (l ++ cs)) = none := by
      cases htext : more ++ (l ++ cs) with
      | nil => rfl
      | cons c text =>
        have hc : digit? c = none := by
          rcases head?_word (c := c) hb' hs (by rw [htext]; rfl) with hblank | hopen
          · exact (parts_of_isBlank hblank).noDigit
          · exact hopen ▸ by decide
        simp [digits, hc]
    refine ⟨by simp [noDigit, digit?_eq_none], ⟨?_, ?_, ?_⟩, rfl⟩
    · simp [field, number, hdigit]
    · exact field_eq_none_of_ne (by decide) _
    · exact field_eq_none_of_ne (by decide) _

theorem head?_word_ne {t : Token} {blanks l : List Char} {c : Char} (hb : Blank blanks)
    (hs : t.Spelled l) (hc : isBlank c = false) (ht : ¬ t.Opens c) (cs : List Char) :
    (blanks ++ (l ++ cs)).head? ≠ some c := by
  intro h
  rcases head?_word hb hs h with hblank | hopen
  · rw [hc] at hblank
    cases hblank
  · exact ht hopen

end DateSpan.Expr
