import DateSpan.Proofs.Expr.Lexeme

/-! One reader for tokens of every kind. The reader of a kind is its part in that kind, so what a
text reads as is settled by its tokens. -/

namespace DateSpan.Expr

open Text

/-- A reader of one kind as a reader of tokens. -/
def tagged {α : Type} (f : α → Token) (read : Reader α) : Reader Token := fun cs =>
  (read cs).map fun x => (f x.1, x.2)

/-- Reads a token; its first character says of which kind. -/
def readToken : Reader Token
  | 'P' :: cs => tagged .duration amounts ('P' :: cs)
  | '>' :: cs => tagged .lowerSign lowerOp ('>' :: cs)
  | '<' :: cs => tagged .upperSign upperOp ('<' :: cs)
  | ',' :: cs => some (.comma, cs)
  | '.' :: cs => tagged (fun () => .dots) dots ('.' :: cs)
  | '+' :: cs => some (.side .after, cs)
  | '-' :: cs => some (.side .before, cs)
  | '|' :: cs => tagged (fun () => .orSign) orSign ('|' :: cs)
  | cs => tagged .brief brief cs

/-! ## Kinds -/

namespace Token

def brief? : Token → Option Brief
  | brief b => some b
  | _ => none

def duration? : Token → Option Amounts
  | duration a => some a
  | _ => none

def lowerSign? : Token → Option Bool
  | lowerSign s => some s
  | _ => none

def upperSign? : Token → Option Bool
  | upperSign s => some s
  | _ => none

def dots? : Token → Option Unit
  | dots => some ()
  | _ => none

def side? : Token → Option Side
  | side s => some s
  | _ => none

def orSign? : Token → Option Unit
  | orSign => some ()
  | _ => none

end Token

/-- Reads a token of one kind only. -/
def only {α : Type} (kind : Token → Option α) : Reader α := fun cs =>
  (readToken cs).bind fun x => (kind x.1).map (·, x.2)

/-! ## Openings -/

/-- The first characters of a token's spellings. -/
def Token.Opens : Token → Char → Prop
  | .brief _, c => (digit? c).isSome
  | .duration _, c => c = 'P'
  | .lowerSign _, c => c = '>'
  | .upperSign _, c => c = '<'
  | .comma, c => c = ','
  | .dots, c => c = '.'
  | .side .after, c => c = '+'
  | .side .before, c => c = '-'
  | .orSign, c => c = '|'

theorem brief_eq_none {c : Char} (h : digit? c = none) (cs : List Char) :
    brief (c :: cs) = none := by
  simp [brief, number, digits, h]

theorem readToken_digit {c : Char} (h : (digit? c).isSome) (cs : List Char) :
    readToken (c :: cs) = tagged .brief brief (c :: cs) := by
  unfold readToken
  split
  case h_9 => rfl
  all_goals
    rename_i heq
    cases heq
    exact absurd h (by decide)

theorem tagged_eq_some {α : Type} {f : α → Token} {read : Reader α} {cs rest : List Char}
    {t : Token} (h : tagged f read cs = some (t, rest)) :
    ∃ a, t = f a ∧ read cs = some (a, rest) := by
  obtain ⟨⟨a, rest'⟩, hread, heq⟩ := Option.map_eq_some_iff.mp h
  cases heq
  exact ⟨a, rfl, hread⟩

/-- The first character tells which token was read. -/
theorem readToken_opens {c : Char} {cs rest : List Char} {t : Token}
    (h : readToken (c :: cs) = some (t, rest)) : t.Opens c := by
  unfold readToken at h
  split at h
  case h_4 heq | h_6 heq | h_7 heq =>
    cases heq
    cases h
    rfl
  case h_9 =>
    obtain ⟨b, rfl, hread⟩ := tagged_eq_some h
    cases hdigit : digit? c with
    | none =>
      rw [brief_eq_none hdigit] at hread
      cases hread
    | some d => exact Option.isSome_of_mem hdigit
  all_goals
    rename_i heq
    cases heq
    obtain ⟨a, rfl, -⟩ := tagged_eq_some h
    rfl

/-- A reader that is the tagged one where its tokens open, and reads nothing elsewhere, reads the
tokens of its kind. -/
theorem eq_only {α : Type} {kind : Token → Option α} {f : α → Token} {read : Reader α}
    (hkind : ∀ t a, kind t = some a ↔ t = f a)
    (hopen : ∀ a c cs, (f a).Opens c → readToken (c :: cs) = tagged f read (c :: cs))
    (hother : ∀ c cs, (∀ a, ¬ (f a).Opens c) → read (c :: cs) = none) (hnil : read [] = none) :
    read = only kind := by
  funext cs
  cases cs with
  | nil => exact hnil
  | cons c cs =>
    unfold only
    by_cases hc : ∃ a, (f a).Opens c
    · obtain ⟨a, hc⟩ := hc
      rw [hopen a c cs hc, tagged]
      cases read (c :: cs) with
      | none => rfl
      | some x => simp [(hkind (f x.1) x.1).mpr rfl]
    · rw [hother c cs (not_exists.mp hc)]
      cases hread : readToken (c :: cs) with
      | none => rfl
      | some x =>
        cases hx : kind x.1 with
        | none => simp [hx]
        | some a =>
          have hopens := readToken_opens hread
          rw [(hkind x.1 a).mp hx] at hopens
          exact absurd ⟨a, hopens⟩ hc

theorem brief_eq_only : brief = only Token.brief? := by
  apply eq_only (f := .brief)
  · intro t b
    cases t <;> simp [Token.brief?]
  · intro b c cs hc
    exact readToken_digit hc cs
  · intro c cs hc
    exact brief_eq_none (by simpa [Token.Opens] using hc (.year 0)) cs
  · rfl

theorem amounts_eq_only : amounts = only Token.duration? := by
  apply eq_only (f := .duration)
  · intro t a
    cases t <;> simp [Token.duration?]
  · rintro a c cs rfl
    rfl
  · intro c cs hc
    have hletter := hc ⟨none, none, none, none, none, none⟩
    unfold amounts
    split <;> simp_all [Token.Opens]
  · rfl

theorem lowerOp_eq_only : lowerOp = only Token.lowerSign? := by
  apply eq_only (f := .lowerSign)
  · intro t a
    cases t <;> simp [Token.lowerSign?]
  · rintro a c cs rfl
    rfl
  · intro c cs hc
    unfold lowerOp
    split <;> simp_all [Token.Opens]
  · rfl

theorem upperOp_eq_only : upperOp = only Token.upperSign? := by
  apply eq_only (f := .upperSign)
  · intro t a
    cases t <;> simp [Token.upperSign?]
  · rintro a c cs rfl
    rfl
  · intro c cs hc
    unfold upperOp
    split <;> simp_all [Token.Opens]
  · rfl

theorem dots_eq_only : dots = only Token.dots? := by
  apply eq_only (f := fun () => .dots)
  · intro t a
    cases t <;> simp [Token.dots?]
  · rintro a c cs rfl
    rfl
  · intro c cs hc
    unfold dots
    split <;> simp_all [Token.Opens]
  · rfl

theorem orSign_eq_only : orSign = only Token.orSign? := by
  apply eq_only (f := fun () => .orSign)
  · intro t a
    cases t <;> simp [Token.orSign?]
  · rintro a c cs rfl
    rfl
  · intro c cs hc
    unfold orSign
    split <;> simp_all [Token.Opens]
  · rfl

theorem sideSign_eq_only : sideSign = only Token.side? := by
  apply eq_only (f := .side)
  · intro t a
    cases t <;> simp [Token.side?]
  · intro a c cs hc
    cases a <;> cases hc <;> rfl
  · intro c cs hc
    have hplus := hc .after
    have hminus := hc .before
    unfold sideSign
    split <;> simp_all [Token.Opens]
  · rfl

/-! ## The comma -/

theorem dropComma_of_comma {cs rest : List Char}
    (h : readToken (skipBlank cs) = some (.comma, rest)) : dropComma cs = rest := by
  cases hs : skipBlank cs with
  | nil =>
    rw [hs] at h
    cases h
  | cons c tail =>
    rw [hs] at h
    obtain rfl : c = ',' := readToken_opens h
    cases h
    simp only [dropComma, hs]

theorem dropComma_of_other {cs : List Char}
    (h : ∀ rest, readToken (skipBlank cs) ≠ some (.comma, rest)) : dropComma cs = cs := by
  unfold dropComma
  split
  · rename_i rest heq
    exact absurd (by rw [heq]; rfl) (h rest)
  · rfl

/-! ## Spellings -/

theorem BriefText.cons {b : Brief} {cs : List Char} (h : BriefText b cs) :
    ∃ c cs', cs = c :: cs' ∧ (digit? c).isSome := by
  have hfront : ∀ {y ys rest}, Places 4 y ys →
      ∃ c cs', ys ++ rest = c :: cs' ∧ (digit? c).isSome := by
    intro y ys rest hy
    obtain ⟨c, ys', rfl, hc⟩ := hy.cons
    exact ⟨c, ys' ++ rest, rfl, hc⟩
  cases h with
  | year hy => exact hy.cons
  | month hy | day hy | hour hy | minute hy | second hy | compact hy => exact hfront hy

theorem Token.Spelled.opens {t : Token} {l : List Char} (h : t.Spelled l) :
    ∃ c l', l = c :: l' ∧ t.Opens c := by
  cases h with
  | brief h => exact h.cons
  | duration h =>
    cases h
    exact ⟨_, _, rfl, rfl⟩
  | _ => exact ⟨_, _, rfl, rfl⟩

/-- Nothing after the token goes on with it. -/
def Token.EndsAt : Token → List Char → Prop
  | .brief _, rest => BriefEnds rest
  | .duration _, rest => DurationEnds rest
  | .lowerSign _, rest | .upperSign _, rest => rest.head? ≠ some '='
  | .orSign, rest => rest.head? ≠ some '|'
  | _, _ => True

theorem lowerOp_strict {rest : List Char} (h : rest.head? ≠ some '=') :
    lowerOp ('>' :: rest) = some (true, rest) := by
  cases rest with
  | nil => rfl
  | cons c rest => simp_all [lowerOp]

theorem upperOp_strict {rest : List Char} (h : rest.head? ≠ some '=') :
    upperOp ('<' :: rest) = some (true, rest) := by
  cases rest with
  | nil => rfl
  | cons c rest => simp_all [upperOp]

theorem orSign_single {rest : List Char} (h : rest.head? ≠ some '|') :
    orSign ('|' :: rest) = some ((), rest) := by
  cases rest with
  | nil => rfl
  | cons c rest => simp_all [orSign]

theorem readToken_append {t : Token} {l rest : List Char} (h : t.Spelled l) (hr : t.EndsAt rest) :
    readToken (l ++ rest) = some (t, rest) := by
  cases h with
  | brief h =>
    have hread := brief_append h hr
    obtain ⟨c, cs, rfl, hc⟩ := h.cons
    rw [List.cons_append] at hread ⊢
    rw [readToken_digit hc, tagged, hread]
    rfl
  | duration h =>
    have hread := amounts_append h hr
    cases h
    rw [List.cons_append] at hread ⊢
    rw [readToken, tagged, hread]
    rfl
  | greater => simp [readToken, tagged, lowerOp_strict hr]
  | less => simp [readToken, tagged, upperOp_strict hr]
  | single => simp [readToken, tagged, orSign_single hr]
  | _ => rfl

/-! ## Soundness -/

/-- What is read is spelled at the front of the text. -/
def Sound {α : Type} (f : α → Token) (read : Reader α) : Prop :=
  ∀ cs x rest, read cs = some (x, rest) → ∃ l, (f x).Spelled l ∧ cs = l ++ rest

theorem brief_isSound : Sound .brief brief := by
  intro cs b rest h
  obtain ⟨l, rfl, hl⟩ := brief_sound h
  exact ⟨l, .brief hl, rfl⟩

theorem lowerOp_isSound : Sound .lowerSign lowerOp := by
  intro cs s rest h
  unfold lowerOp at h
  split at h <;> simp only [Option.some.injEq, Prod.mk.injEq, reduceCtorEq] at h
  · obtain ⟨rfl, rfl⟩ := h
    exact ⟨_, .greaterOrEqual, rfl⟩
  · obtain ⟨rfl, rfl⟩ := h
    exact ⟨_, .greater, rfl⟩

theorem upperOp_isSound : Sound .upperSign upperOp := by
  intro cs s rest h
  unfold upperOp at h
  split at h <;> simp only [Option.some.injEq, Prod.mk.injEq, reduceCtorEq] at h
  · obtain ⟨rfl, rfl⟩ := h
    exact ⟨_, .lessOrEqual, rfl⟩
  · obtain ⟨rfl, rfl⟩ := h
    exact ⟨_, .less, rfl⟩

theorem dots_isSound : Sound (fun () => .dots) dots := by
  intro cs s rest h
  unfold dots at h
  split at h <;> simp only [Option.some.injEq, Prod.mk.injEq, reduceCtorEq] at h
  obtain ⟨-, rfl⟩ := h
  exact ⟨_, .dots, rfl⟩

theorem sideSign_isSound : Sound .side sideSign := by
  intro cs s rest h
  unfold sideSign at h
  split at h <;> simp only [Option.some.injEq, Prod.mk.injEq, reduceCtorEq] at h
  · obtain ⟨rfl, rfl⟩ := h
    exact ⟨_, .plus, rfl⟩
  · obtain ⟨rfl, rfl⟩ := h
    exact ⟨_, .minus, rfl⟩

theorem orSign_isSound : Sound (fun () => .orSign) orSign := by
  intro cs s rest h
  unfold orSign at h
  split at h <;> simp only [Option.some.injEq, Prod.mk.injEq, reduceCtorEq] at h
  · obtain ⟨-, rfl⟩ := h
    exact ⟨_, .double, rfl⟩
  · obtain ⟨-, rfl⟩ := h
    exact ⟨_, .single, rfl⟩

end DateSpan.Expr
