import DateSpan.Expr.Alternatives
import DateSpan.Proofs.Expr.Grammar

/-! Readers of single tokens. Each reads a spelled token where the text after it does not go on with
the token, and whatever it reads is spelled. -/

namespace DateSpan.Expr

open Text

/-! ## Numbers -/

theorem digits_append {cs : List Char} {ds : List Nat} (h : cs.map digit? = ds.map some)
    (rest : List Char) : digits cs.length (cs ++ rest) = some (ds, rest) := by
  induction cs generalizing ds with
  | nil =>
    obtain rfl : ds = [] := by simpa using h.symm
    rfl
  | cons c cs ih =>
    cases ds with
    | nil => simp at h
    | cons d ds =>
      simp only [List.map_cons, List.cons.injEq] at h
      simp [digits, h.1, ih h.2]

theorem digits_sound {n : Nat} {cs : List Char} {ds : List Nat} {rest : List Char}
    (h : digits n cs = some (ds, rest)) :
    ∃ lex, cs = lex ++ rest ∧ lex.map digit? = ds.map some ∧ lex.length = n := by
  induction n generalizing cs ds with
  | zero =>
    simp only [digits, Option.some.injEq, Prod.mk.injEq] at h
    exact ⟨[], by simp [h.2], by simp [← h.1], rfl⟩
  | succ n ih =>
    cases cs with
    | nil => simp [digits] at h
    | cons c cs =>
      simp only [digits, bind, Option.bind_eq_some_iff] at h
      obtain ⟨d, hd, ⟨es, tail⟩, he, heq⟩ := h
      simp only [Option.some.injEq, Prod.mk.injEq] at heq
      obtain ⟨rfl, rfl⟩ := heq
      obtain ⟨lex, rfl, hlex, hlen⟩ := ih he
      exact ⟨c :: lex, rfl, by simp [hd, hlex], by simp [hlen]⟩

theorem number_append {n x : Nat} {cs : List Char} (h : Places n x cs) (rest : List Char) :
    number n (cs ++ rest) = some (x, rest) := by
  obtain ⟨⟨ds, hds, hv⟩, rfl⟩ := h
  simp [number, digits_append hds, hv]

theorem number_sound {n x : Nat} {cs rest : List Char} (h : number n cs = some (x, rest)) :
    ∃ lex, cs = lex ++ rest ∧ Places n x lex := by
  simp only [number, bind, Option.bind_eq_some_iff] at h
  obtain ⟨⟨ds, tail⟩, hd, heq⟩ := h
  simp only [Option.some.injEq, Prod.mk.injEq] at heq
  obtain ⟨lex, hcs, hlex, hlen⟩ := digits_sound hd
  exact ⟨lex, heq.2 ▸ hcs, ⟨ds, hlex, heq.1⟩, hlen⟩

theorem field_append {mark : Char} {x : Nat} {cs : List Char} (h : Places 2 x cs)
    (rest : List Char) : field mark (mark :: (cs ++ rest)) = some (x, rest) := by
  simp [field, number_append h]

theorem field_sound {mark : Char} {x : Nat} {cs rest : List Char}
    (h : field mark cs = some (x, rest)) : ∃ lex, cs = mark :: (lex ++ rest) ∧ Places 2 x lex := by
  cases cs with
  | nil => simp [field] at h
  | cons c cs =>
    simp only [field] at h
    split at h
    · rename_i hc
      obtain ⟨lex, rfl, hlex⟩ := number_sound h
      exact ⟨lex, by rw [hc], hlex⟩
    · simp at h

theorem field_eq_none_of_ne {mark c : Char} (h : c ≠ mark) (cs : List Char) :
    field mark (c :: cs) = none := if_neg h

/-- A number written with digits starts with one. -/
theorem Places.cons {n x : Nat} {cs : List Char} (h : Places (n + 1) x cs) :
    ∃ c cs', cs = c :: cs' ∧ (digit? c).isSome := by
  obtain ⟨hnum, hlen⟩ := h
  cases cs with
  | nil => simp at hlen
  | cons c cs => exact ⟨c, cs, rfl, hnum.isSome_digit? (List.mem_cons_self ..)⟩

theorem Places.noDigit {n x : Nat} {cs : List Char} (h : Places (n + 1) x cs) (rest : List Char) :
    noDigit (cs ++ rest) = false := by
  obtain ⟨c, cs', rfl, hc⟩ := h.cons
  simpa [Expr.noDigit, Option.isSome_iff_ne_none] using hc

theorem Places.field_eq_none {n x : Nat} {cs : List Char} (h : Places (n + 1) x cs)
    (rest : List Char) : field '-' (cs ++ rest) = none := by
  obtain ⟨c, cs', rfl, hc⟩ := h.cons
  refine field_eq_none_of_ne ?_ _
  rintro rfl
  exact absurd hc (by decide)

/-! ## Briefs -/

/-- No brief goes on with the text. -/
structure BriefEnds (rest : List Char) : Prop where
  noDigit : noDigit rest = true
  noField : field '-' rest = none ∧ field 'T' rest = none ∧ field ':' rest = none
  noZone : dropZone rest = rest

theorem brief_append {b : Brief} {cs rest : List Char} (h : BriefText b cs) (hr : BriefEnds rest) :
    brief (cs ++ rest) = some (b, rest) := by
  obtain ⟨hdigit, ⟨hminus, htime, hcolon⟩, hzone⟩ := hr
  cases h with
  | year hy => simp [brief, number_append hy, hminus, hdigit]
  | month hy hmo => simp [brief, number_append hy, field_append hmo, hminus]
  | day hy hmo hd => simp [brief, number_append hy, field_append hmo, field_append hd, htime]
  | hour hy hmo hd hh =>
    simp [brief, number_append hy, field_append hmo, field_append hd, field_append hh, hcolon]
  | minute hy hmo hd hh hmi =>
    simp [brief, number_append hy, field_append hmo, field_append hd, field_append hh,
      field_append hmi, hcolon]
  | second hy hmo hd hh hmi hs hz =>
    rcases hz with rfl | rfl
    · simp [brief, number_append hy, field_append hmo, field_append hd, field_append hh,
        field_append hmi, field_append hs, hzone]
    · simp [brief, number_append hy, field_append hmo, field_append hd, field_append hh,
        field_append hmi, field_append hs, dropZone]
  | compact hy hmo hd hh hmi hs =>
    simp only [brief, List.append_assoc, number_append hy, bind, Option.bind_some]
    simp [hmo.field_eq_none, hmo.noDigit, compactFields, number_append hmo, number_append hd,
      number_append hh, number_append hmi, number_append hs, hdigit]

theorem dropZone_sound (cs : List Char) :
    ∃ zone, cs = zone ++ dropZone cs ∧ (zone = [] ∨ zone = ['Z']) := by
  unfold dropZone
  split
  · exact ⟨['Z'], rfl, .inr rfl⟩
  · exact ⟨[], rfl, .inl rfl⟩

theorem compactFields_sound {y : Nat} {b : Brief} {cs ys rest : List Char} (hy : Places 4 y ys)
    (h : compactFields y cs = some (b, rest)) :
    ∃ lex, cs = lex ++ rest ∧ BriefText b (ys ++ lex) := by
  simp only [compactFields, bind, Option.bind_eq_some_iff] at h
  obtain ⟨⟨mo, c₁⟩, h₁, ⟨d, c₂⟩, h₂, ⟨hh, c₃⟩, h₃, ⟨mi, c₄⟩, h₄, ⟨s, c₅⟩, h₅, h⟩ := h
  obtain ⟨mos, rfl, hmo⟩ := number_sound h₁
  obtain ⟨ds, rfl, hd⟩ := number_sound h₂
  obtain ⟨hs, rfl, hh⟩ := number_sound h₃
  obtain ⟨mis, rfl, hmi⟩ := number_sound h₄
  obtain ⟨ss, rfl, hs⟩ := number_sound h₅
  split at h
  · cases h
    exact ⟨mos ++ (ds ++ (_ ++ (mis ++ ss))), by simp, .compact hy hmo hd hh hmi hs⟩
  · simp at h

theorem brief_sound {b : Brief} {cs rest : List Char} (h : brief cs = some (b, rest)) :
    ∃ lex, cs = lex ++ rest ∧ BriefText b lex := by
  simp only [brief, bind, Option.bind_eq_some_iff] at h
  obtain ⟨⟨y, c₀⟩, h₀, h⟩ := h
  obtain ⟨ys, rfl, hy⟩ := number_sound h₀
  dsimp only at h
  split at h
  · split at h
    · cases h
      exact ⟨ys, rfl, .year hy⟩
    · obtain ⟨lex, rfl, hlex⟩ := compactFields_sound hy h
      exact ⟨ys ++ lex, by simp, hlex⟩
  rename_i hf
  obtain ⟨mos, rfl, hmo⟩ := field_sound hf
  split at h
  · cases h
    exact ⟨_, by simp, .month hy hmo⟩
  rename_i hf
  obtain ⟨ds, rfl, hd⟩ := field_sound hf
  split at h
  · cases h
    exact ⟨_, by simp, .day hy hmo hd⟩
  rename_i hf
  obtain ⟨hs, rfl, hh⟩ := field_sound hf
  split at h
  · cases h
    exact ⟨_, by simp, .hour hy hmo hd hh⟩
  rename_i hf
  obtain ⟨mis, rfl, hmi⟩ := field_sound hf
  split at h
  · cases h
    exact ⟨_, by simp, .minute hy hmo hd hh hmi⟩
  rename_i tail hf
  obtain ⟨ss, rfl, hs⟩ := field_sound hf
  cases h
  obtain ⟨zone, hzone, hz⟩ := dropZone_sound tail
  refine ⟨_, ?_, .second hy hmo hd hh hmi hs hz⟩
  simp only [List.append_assoc, List.cons_append, ← hzone]

/-! ## Durations -/

theorem digitRun_append {cs : List Char} {ds : List Nat} (h : cs.map digit? = ds.map some)
    {rest : List Char} (hr : noDigit rest) : digitRun (cs ++ rest) = (ds, rest) := by
  induction cs generalizing ds with
  | nil =>
    obtain rfl : ds = [] := by simpa using h.symm
    cases rest with
    | nil => rfl
    | cons c rest =>
      obtain hc : digit? c = none := by simpa [noDigit] using hr
      simp [digitRun, hc]
  | cons c cs ih =>
    cases ds with
    | nil => simp at h
    | cons d ds =>
      simp only [List.map_cons, List.cons.injEq] at h
      simp [digitRun, h.1, ih h.2]

theorem digitRun_sound (cs : List Char) :
    ∃ lex, cs = lex ++ (digitRun cs).2 ∧ lex.map digit? = (digitRun cs).1.map some := by
  induction cs with
  | nil => exact ⟨[], rfl, rfl⟩
  | cons c cs ih =>
    obtain ⟨lex, hcs, hlex⟩ := ih
    simp only [digitRun]
    split
    · rename_i d hd
      exact ⟨c :: lex, congrArg (c :: ·) hcs, by simp [hd, hlex]⟩
    · exact ⟨[], rfl, rfl⟩

/-- A written count is read whole, whatever follows it. -/
theorem count_written {mark : Char} (hm : digit? mark = none) {n : Nat} {cs : List Char}
    (h : CountText mark (some n) cs) (rest : List Char) :
    count mark (cs ++ rest) = (some n, rest) := by
  cases h with
  | @written _ ds hne hnum =>
    obtain ⟨vs, hvs, rfl⟩ := hnum
    have hrun : digitRun (ds ++ mark :: rest) = (vs, mark :: rest) :=
      digitRun_append hvs (by simp [noDigit, hm])
    cases vs with
    | nil => exact absurd (by simpa using hvs) hne
    | cons v vs => simp [count, hrun]

/-- A count is not read in place of one with another designator. -/
theorem count_other {mark other : Char} (hm : digit? other = none) (hne : other ≠ mark) {n : Nat}
    {cs : List Char} (h : CountText other (some n) cs) (rest : List Char) :
    count mark (cs ++ rest) = (none, cs ++ rest) := by
  cases h with
  | @written _ ds _ hnum =>
    obtain ⟨vs, hvs, rfl⟩ := hnum
    have hrun : digitRun (ds ++ other :: rest) = (vs, other :: rest) :=
      digitRun_append hvs (by simp [noDigit, hm])
    cases vs with
    | nil => simp [count, hrun]
    | cons v vs => simp [count, hrun, hne]

theorem count_noDigit (mark : Char) {cs : List Char} (h : noDigit cs) :
    count mark cs = (none, cs) := by
  have hrun : digitRun ([] ++ cs) = ([], cs) := digitRun_append rfl h
  rw [List.nil_append] at hrun
  simp [count, hrun]

theorem count_sound {mark : Char} {k : Option Nat} {cs rest : List Char}
    (h : count mark cs = (k, rest)) : ∃ lex, cs = lex ++ rest ∧ CountText mark k lex := by
  obtain ⟨lex, hcs, hlex⟩ := digitRun_sound cs
  unfold count at h
  split at h
  · rename_i d ds c tail hrun
    rw [hrun] at hcs hlex
    split at h
    · rename_i hc
      cases h
      refine ⟨lex ++ [mark], by simpa [hc] using hcs, .written ?_ ⟨_, hlex, rfl⟩⟩
      rintro rfl
      simp at hlex
    · cases h
      exact ⟨[], rfl, .absent⟩
  · cases h
    exact ⟨[], rfl, .absent⟩

/-- What stands before the rest of a text keeps a count from being read, if it is not empty. -/
def Passes (mark : Char) (front : List Char) : Prop :=
  ∀ rest, (front = [] → noDigit rest) → count mark (front ++ rest) = (none, front ++ rest)

theorem passes_nil (mark : Char) : Passes mark [] := fun _ h => count_noDigit mark (h rfl)

theorem CountText.passes {mark other : Char} {k : Option Nat} {cs front : List Char}
    (h : CountText other k cs) (hm : digit? other = none) (hne : other ≠ mark)
    (hf : Passes mark front) : Passes mark (cs ++ front) := by
  intro rest hr
  cases h with
  | absent => exact hf rest hr
  | written hds hnum =>
    rw [List.append_assoc]
    exact count_other hm hne (.written hds hnum) _

theorem TimeText.passes {h m s : Option Nat} {cs : List Char} (ht : TimeText h m s cs)
    (mark : Char) : Passes mark cs := by
  cases ht with
  | absent => exact passes_nil mark
  | written =>
    intro rest _
    exact count_noDigit mark (by simp [noDigit, digit?_eq_none])

theorem count_append {mark : Char} (hm : digit? mark = none) {k : Option Nat}
    {cs front rest : List Char} (h : CountText mark k cs) (hf : Passes mark front)
    (hr : front = [] → noDigit rest) :
    count mark (cs ++ (front ++ rest)) = (k, front ++ rest) := by
  cases h with
  | absent => exact hf rest hr
  | written hds hnum => exact count_written hm (.written hds hnum) _

theorem CountText.noDigit {mark : Char} {k : Option Nat} {cs : List Char}
    (h : CountText mark k cs) (hk : k.isSome) (rest : List Char) :
    noDigit (cs ++ rest) = false := by
  cases h with
  | absent => simp at hk
  | @written _ ds hds hnum =>
    cases ds with
    | nil => exact absurd rfl hds
    | cons c ds =>
      have hc := hnum.isSome_digit? (List.mem_cons_self ..)
      simpa [Expr.noDigit, Option.isSome_iff_ne_none] using hc

/-- The counts of a time start with a digit. -/
theorem noDigit_counts {h m s : Option Nat} {hs ms ss : List Char} (hh : CountText 'H' h hs)
    (hm : CountText 'M' m ms) (hsec : CountText 'S' s ss) (hany : h.isSome ∨ m.isSome ∨ s.isSome)
    (rest : List Char) : noDigit (hs ++ (ms ++ (ss ++ rest))) = false := by
  cases hh with
  | written hds hnum => exact CountText.noDigit (.written hds hnum) rfl _
  | absent =>
    cases hm with
    | written hds hnum => exact CountText.noDigit (.written hds hnum) rfl _
    | absent => exact hsec.noDigit (by simpa using hany) _

/-- No duration goes on with the text. -/
structure DurationEnds (rest : List Char) : Prop where
  noDigit : noDigit rest
  noTime : rest.head? ≠ some 'T'

theorem digit?_designator :
    digit? 'Y' = none ∧ digit? 'M' = none ∧ digit? 'D' = none ∧ digit? 'H' = none ∧
      digit? 'S' = none := by
  decide

/-- The counts of a time keep the counts before them from being read further on. -/
theorem passes_time {m s : Option Nat} {ms ss : List Char} (hm : CountText 'M' m ms)
    (hsec : CountText 'S' s ss) : Passes 'H' (ms ++ ss) ∧ Passes 'M' ss := by
  obtain ⟨_, hM, _, _, hS⟩ := digit?_designator
  have hlast : ∀ mark, 'S' ≠ mark → Passes mark ss := by
    intro mark hne
    have h := hsec.passes hS hne (passes_nil mark)
    rwa [List.append_nil] at h
  exact ⟨hm.passes hM (by decide) (hlast 'H' (by decide)), hlast 'M' (by decide)⟩

/-- The counts of a date and the time keep the counts before them from being read further on. -/
theorem passes_date {mo d h m s : Option Nat} {mos ds ts : List Char} (hmo : CountText 'M' mo mos)
    (hd : CountText 'D' d ds) (ht : TimeText h m s ts) :
    Passes 'Y' (mos ++ (ds ++ ts)) ∧ Passes 'M' (ds ++ ts) := by
  obtain ⟨_, hM, hD, _, _⟩ := digit?_designator
  exact ⟨hmo.passes hM (by decide) (hd.passes hD (by decide) (ht.passes 'Y')),
    hd.passes hD (by decide) (ht.passes 'M')⟩

theorem timeCounts_eq {cs : List Char} (h : cs.head? ≠ some 'T') :
    timeCounts cs = ((none, none, none), cs) := by
  unfold timeCounts
  split
  · simp at h
  · rfl

theorem timeCounts_append {h m s : Option Nat} {cs rest : List Char} (ht : TimeText h m s cs)
    (hr : DurationEnds rest) : timeCounts (cs ++ rest) = ((h, m, s), rest) := by
  obtain ⟨_, hM, _, hH, hS⟩ := digit?_designator
  cases ht with
  | absent => exact timeCounts_eq hr.noTime
  | @written _ _ _ hs ms ss hh hm hsec hany =>
    obtain ⟨hms, hss⟩ := passes_time hm hsec
    have h₁ := count_append hH hh hms fun _ => hr.noDigit
    have h₂ := count_append hM hm hss fun _ => hr.noDigit
    have h₃ := count_append hS hsec (passes_nil 'S') fun _ => hr.noDigit
    simp only [List.append_assoc, List.nil_append] at h₁ h₂ h₃
    simp [timeCounts, noDigit_counts hh hm hsec hany, h₁, h₂, h₃]

theorem amounts_append {a : Amounts} {cs rest : List Char} (h : DurationText a cs)
    (hr : DurationEnds rest) : amounts (cs ++ rest) = some (a, rest) := by
  obtain ⟨hY, hM, hD, _, _⟩ := digit?_designator
  cases h with
  | @written _ _ _ _ _ _ ys mos ds ts hy hmo hd ht hany =>
    obtain ⟨hmos, hds⟩ := passes_date hmo hd ht
    have hts : Passes 'D' ts := ht.passes 'D'
    have h₁ := count_append hY hy hmos fun _ => hr.noDigit
    have h₂ := count_append hM hmo hds fun _ => hr.noDigit
    have h₃ := count_append hD hd hts fun _ => hr.noDigit
    simp only [List.append_assoc] at h₁ h₂ h₃
    simp [amounts, h₁, h₂, h₃, timeCounts_append ht hr, -not_or, or_assoc, hany]

theorem timeCounts_sound {h m s : Option Nat} {cs rest : List Char}
    (ht : timeCounts cs = ((h, m, s), rest)) :
    ∃ lex, TimeText h m s lex ∧
      (cs = lex ++ rest ∨ lex = [] ∧ cs = 'T' :: rest ∧ noDigit rest = false) := by
  unfold timeCounts at ht
  split at ht
  · rename_i body
    split at ht
    · simp only [Prod.mk.injEq] at ht
      obtain ⟨⟨rfl, rfl, rfl⟩, rfl⟩ := ht
      exact ⟨[], .absent, .inl rfl⟩
    · rename_i hdigit
      rcases h₁ : count 'H' body with ⟨h', r₁⟩
      rcases h₂ : count 'M' r₁ with ⟨m', r₂⟩
      rcases h₃ : count 'S' r₂ with ⟨s', r₃⟩
      simp only [h₁, h₂, h₃, Prod.mk.injEq] at ht
      obtain ⟨⟨rfl, rfl, rfl⟩, rfl⟩ := ht
      obtain ⟨hs, rfl, hh⟩ := count_sound h₁
      obtain ⟨ms, rfl, hm⟩ := count_sound h₂
      obtain ⟨ss, rfl, hsec⟩ := count_sound h₃
      by_cases hany : h'.isSome ∨ m'.isSome ∨ s'.isSome
      · exact ⟨_, .written hh hm hsec hany, .inl (by simp)⟩
      · cases hh with
        | written => simp at hany
        | absent =>
          cases hm with
          | written => simp at hany
          | absent =>
            cases hsec with
            | written => simp at hany
            | absent => exact ⟨[], .absent, .inr ⟨rfl, rfl, by simpa using hdigit⟩⟩
  · simp only [Prod.mk.injEq] at ht
    obtain ⟨⟨rfl, rfl, rfl⟩, rfl⟩ := ht
    exact ⟨[], .absent, .inl rfl⟩

/-- A duration that is read is written, and a `T` after it without a count is lost. -/
theorem amounts_sound {a : Amounts} {cs rest : List Char} (h : amounts cs = some (a, rest)) :
    ∃ lex, DurationText a lex ∧
      (cs = lex ++ rest ∨ cs = lex ++ 'T' :: rest ∧ noDigit rest = false) := by
  unfold amounts at h
  split at h
  · rename_i body
    rcases h₁ : count 'Y' body with ⟨y, r₁⟩
    rcases h₂ : count 'M' r₁ with ⟨mo, r₂⟩
    rcases h₃ : count 'D' r₂ with ⟨d, r₃⟩
    rcases h₄ : timeCounts r₃ with ⟨⟨hh, m, s⟩, r₄⟩
    simp only [h₁, h₂, h₃, h₄] at h
    split at h
    · rename_i hany
      cases h
      obtain ⟨ys, rfl, hy⟩ := count_sound h₁
      obtain ⟨mos, rfl, hmo⟩ := count_sound h₂
      obtain ⟨ds, rfl, hd⟩ := count_sound h₃
      obtain ⟨ts, ht, hrest⟩ := timeCounts_sound h₄
      refine ⟨_, .written hy hmo hd ht (by simpa [or_assoc] using hany), ?_⟩
      rcases hrest with rfl | ⟨rfl, rfl, hdigit⟩
      · exact .inl (by simp)
      · exact .inr ⟨by simp, hdigit⟩
    · simp at h
  · simp at h

/-- The text is the rest after what stands before it, or is shorter than the rest already. -/
def Reached (front rest cs : List Char) : Prop :=
  cs = front ++ rest ∨ cs.length ≤ rest.length

theorem Reached.count {mark : Char} (hm : digit? mark = none) {k : Option Nat}
    {cs front rest text : List Char} (h : CountText mark k cs) (hf : Passes mark front)
    (hr : Reached (cs ++ front) rest text) : Reached front rest (count mark text).2 := by
  rcases hr with rfl | hlen
  · rw [List.append_assoc]
    cases h with
    | written hds hnum => exact .inl (by rw [count_written hm (.written hds hnum)])
    | absent =>
      cases front with
      | nil => exact .inr (length_count_le mark _)
      | cons c front => exact .inl (by rw [List.nil_append, hf rest nofun])
  · exact .inr (Nat.le_trans (length_count_le mark text) hlen)

theorem Reached.timeCounts {h m s : Option Nat} {cs rest text : List Char} (ht : TimeText h m s cs)
    (hr : Reached cs rest text) : (timeCounts text).2.length ≤ rest.length := by
  obtain ⟨_, hM, _, hH, hS⟩ := digit?_designator
  rcases hr with rfl | hlen
  · cases ht with
    | absent => exact length_timeCounts_le _
    | @written _ _ _ hs ms ss hh hm hsec hany =>
      obtain ⟨hms, hss⟩ := passes_time hm hsec
      have h₁ : Reached (hs ++ (ms ++ ss)) rest (hs ++ (ms ++ (ss ++ rest))) := .inl (by simp)
      have h₂ := h₁.count hH hh hms
      have h₃ := h₂.count hM hm hss
      have h₄ : Reached [] rest _ := Reached.count hS hsec (passes_nil 'S') (by simpa using h₃)
      simp only [List.cons_append, List.append_assoc, Expr.timeCounts,
        noDigit_counts hh hm hsec hany, Bool.false_eq_true, if_false]
      rcases h₄ with h₄ | h₄
      · exact h₄ ▸ Nat.le_refl _
      · exact h₄
  · exact Nat.le_trans (length_timeCounts_le text) hlen

theorem CountText.two_le {mark : Char} {k : Option Nat} {cs : List Char} (h : CountText mark k cs)
    (hk : k.isSome) : 2 ≤ cs.length := by
  cases h with
  | absent => simp at hk
  | written hds =>
    have := List.length_pos_iff.2 hds
    simp only [List.length_append, List.length_singleton]
    omega

theorem TimeText.two_le {h m s : Option Nat} {cs : List Char} (ht : TimeText h m s cs)
    (hany : h.isSome ∨ m.isSome ∨ s.isSome) : 2 ≤ cs.length := by
  cases ht with
  | absent => simp at hany
  | written hh hm hsec =>
    simp only [List.length_cons, List.length_append]
    rcases hany with h | h | h
    · have := hh.two_le h
      omega
    · have := hm.two_le h
      omega
    · have := hsec.two_le h
      omega

/-- A count and its designator take two characters. -/
theorem two_le_counts {y mo d h m s : Option Nat} {ys mos ds ts : List Char}
    (hy : CountText 'Y' y ys) (hmo : CountText 'M' mo mos) (hd : CountText 'D' d ds)
    (ht : TimeText h m s ts)
    (hany : y.isSome ∨ mo.isSome ∨ d.isSome ∨ h.isSome ∨ m.isSome ∨ s.isSome) :
    2 ≤ (ys ++ (mos ++ (ds ++ ts))).length := by
  simp only [List.length_append]
  rcases hany with h | h | h | h
  · have := hy.two_le h
    omega
  · have := hmo.two_le h
    omega
  · have := hd.two_le h
    omega
  · have := ht.two_le h
    omega

theorem count_none {mark : Char} {cs rest : List Char} (h : count mark cs = (none, rest)) :
    rest = cs := by
  obtain ⟨lex, rfl, hlex⟩ := count_sound h
  cases hlex
  rfl

theorem timeCounts_none {cs rest : List Char} (h : timeCounts cs = ((none, none, none), rest)) :
    cs.length ≤ rest.length + 1 := by
  obtain ⟨lex, hlex, hrest⟩ := timeCounts_sound h
  rcases hrest with rfl | ⟨-, rfl, -⟩
  · cases hlex with
    | absent => exact Nat.le_succ _
    | written _ _ _ hany => simp at hany
  · exact Nat.le_refl _

/-- Whatever follows a written duration, a duration is read that reaches its end. -/
theorem amounts_reaches {a : Amounts} {cs : List Char} (h : DurationText a cs) (rest : List Char) :
    ∃ a' rest', amounts (cs ++ rest) = some (a', rest') ∧ rest'.length ≤ rest.length := by
  obtain ⟨hY, hM, hD, _, _⟩ := digit?_designator
  cases h with
  | @written y mo d _ _ _ ys mos ds ts hy hmo hd ht hany =>
    obtain ⟨hmos, hds⟩ := passes_date hmo hd ht
    have h₀ : Reached (ys ++ (mos ++ (ds ++ ts))) rest (ys ++ (mos ++ (ds ++ (ts ++ rest)))) :=
      .inl (by simp)
    have hreach := ((h₀.count hY hy hmos).count hM hmo hds).count hD hd (ht.passes 'D')
      |>.timeCounts ht
    have hlong := two_le_counts hy hmo hd ht hany
    rcases h₁ : count 'Y' (ys ++ (mos ++ (ds ++ (ts ++ rest)))) with ⟨y', r₁⟩
    rcases h₂ : count 'M' r₁ with ⟨mo', r₂⟩
    rcases h₃ : count 'D' r₂ with ⟨d', r₃⟩
    rcases h₄ : timeCounts r₃ with ⟨⟨h', m', s'⟩, r₄⟩
    simp only [h₁, h₂, h₃, h₄] at hreach
    by_cases hany' : y'.isSome || mo'.isSome || d'.isSome || h'.isSome || m'.isSome || s'.isSome
    · refine ⟨⟨y', mo', d', h', m', s'⟩, r₄, ?_, hreach⟩
      simp only [amounts, List.cons_append, List.append_assoc, h₁, h₂, h₃, h₄, hany', if_true]
    · -- Without a count no more than a `T` is read, and the written duration is longer.
      simp only [Bool.or_eq_true, not_or, Bool.not_eq_true, Option.isSome_eq_false_iff,
        Option.isNone_iff_eq_none] at hany'
      obtain ⟨⟨⟨⟨⟨rfl, rfl⟩, rfl⟩, rfl⟩, rfl⟩, rfl⟩ := hany'
      have h₅ := timeCounts_none h₄
      rw [count_none h₃, count_none h₂, count_none h₁] at h₅
      simp only [List.length_append] at hlong h₅
      omega

end DateSpan.Expr
