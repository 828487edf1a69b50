import DateSpan.Proofs.Outcome
import DateSpan.Settings.Memory

/-! Remembered readings. Whatever was read, cleared and overridden before, a reading gives what it would
give without the memory, and the memory keeps to the size that its first reading found. -/

namespace DateSpan.Settings

/-! ## What a memory holds -/

namespace Memo

def texts (m : Memo) : List String :=
  m.entries.map Prod.fst

theorem mem_of_lookup {m : Memo} {s : String} {e : Expr.Expression}
    (h : List.lookup s m.entries = some e) : (s, e) ∈ m.entries := by
  obtain ⟨before, after, hentries, -⟩ := List.lookup_eq_some_iff.mp h
  rw [hentries]
  exact List.mem_append_right before (List.mem_cons_self ..)

theorem not_mem_texts {m : Memo} {s : String} (h : List.lookup s m.entries = none) :
    s ∉ m.texts := by
  intro hs
  obtain ⟨entry, hentry, rfl⟩ := List.mem_map.mp hs
  exact bne_iff_ne.mp (List.lookup_eq_none_iff.mp h entry hentry) rfl

/-- Each text is kept once, with the expression that it reads as, and there is room for all. -/
structure Faithful (m : Memo) : Prop where
  right : ∀ s e, (s, e) ∈ m.entries → readText s = .ok e
  distinct : m.texts.Nodup
  bounded : m.entries.length ≤ m.capacity

theorem empty_faithful (capacity : Nat) : (empty capacity).Faithful := by
  refine ⟨?_, List.nodup_nil, Nat.zero_le _⟩
  intro s e h
  cases h

theorem Faithful.miss {m : Memo} (h : m.Faithful) : m.miss.Faithful :=
  ⟨h.right, h.distinct, h.bounded⟩

/-- A text that was asked for again moves to the front. -/
theorem Faithful.hit {m : Memo} {s : String} {e : Expr.Expression} (h : m.Faithful)
    (hmem : (s, e) ∈ m.entries) : (m.hit s e).Faithful := by
  have hsub : ((m.entries.filter fun entry => entry.1 ≠ s).map Prod.fst).Sublist m.texts :=
    List.filter_sublist.map Prod.fst
  refine ⟨?_, ?_, ?_⟩
  · intro s' e' h'
    rcases List.mem_cons.mp h' with heq | hold
    · cases heq
      exact h.right s e hmem
    · exact h.right s' e' (List.mem_filter.mp hold).1
  · refine List.nodup_cons.mpr ⟨?_, hsub.nodup h.distinct⟩
    intro hs
    obtain ⟨entry, hentry, hfst⟩ := List.mem_map.mp hs
    exact of_decide_eq_true (List.mem_filter.mp hentry).2 hfst
  · have hless := List.length_filter_lt_length_iff_exists (p := fun entry => entry.1 ≠ s) |>.mpr
      ⟨(s, e), hmem, by simp⟩
    exact Nat.le_trans hless h.bounded

/-- A new text is put in front, and the last is given up if there is no room. -/
theorem Faithful.store {m : Memo} {s : String} {e : Expr.Expression} (h : m.Faithful)
    (hnew : s ∉ m.texts) (hread : readText s = .ok e) : (m.store s e).Faithful := by
  refine ⟨?_, ?_, ?_⟩
  · intro s' e' h'
    rcases List.mem_cons.mp (List.mem_of_mem_take h') with heq | hold
    · cases heq
      exact hread
    · exact h.right s' e' hold
  · have hsub := (List.take_sublist m.capacity ((s, e) :: m.entries)).map Prod.fst
    exact hsub.nodup (List.nodup_cons.mpr ⟨hnew, h.distinct⟩)
  · exact List.length_take_le ..

end Memo

namespace Memory

/-- The size in force, once there is one. -/
def size? : Memory → Option Nat
  | .unsized => none
  | .off => some 0
  | .memo m => some m.capacity

def texts : Memory → List String
  | .memo m => m.texts
  | _ => []

/-- A memo, if there is one, is faithful. -/
def Faithful : Memory → Prop
  | .memo m => m.Faithful
  | _ => True

theorem Faithful.texts_length {m : Memory} (h : m.Faithful) : m.texts.length ≤ m.size?.getD 0 := by
  cases m with
  | memo m =>
    rw [texts, Memo.texts, List.length_map]
    exact h.bounded
  | _ => exact Nat.le_refl 0

theorem Faithful.texts_nodup {m : Memory} (h : m.Faithful) : m.texts.Nodup := by
  cases m with
  | memo m => exact h.distinct
  | _ => exact List.nodup_nil

/-! ## Sizes -/

def ofSize (n : Nat) : Memory :=
  if n = 0 then .off else .memo (.empty n)

theorem ofSize_size? (n : Nat) : (ofSize n).size? = some n := by
  unfold ofSize
  split
  · rename_i hn
    rw [hn]
    rfl
  · rfl

theorem ofSize_texts (n : Nat) : (ofSize n).texts = [] := by
  unfold ofSize
  split <;> rfl

theorem ofSize_faithful (n : Nat) : (ofSize n).Faithful := by
  unfold ofSize
  split
  · trivial
  · exact Memo.empty_faithful n

theorem eq_unsized {m : Memory} (h : m.size? = none) : m = .unsized := by
  cases m with
  | unsized => rfl
  | off => cases h
  | memo m => cases h

theorem sized_unsized (t : Table) : unsized.sized t = (memoSize t).map ofSize := rfl

theorem sized_of_size? {m : Memory} {n : Nat} (h : m.size? = some n) (t : Table) :
    m.sized t = .ok m := by
  cases m with
  | unsized => cases h
  | off => rfl
  | memo m => rfl

/-- A memory that has no size yet takes the one that the settings have now. -/
theorem sized_cases {t : Table} {m m' : Memory} (h : m.sized t = .ok m') :
    (∃ n, m.size? = some n ∧ m' = m) ∨
      (m = .unsized ∧ ∃ n, memoSize t = .ok n ∧ m' = ofSize n) := by
  cases hsize : m.size? with
  | some n =>
    cases h.symm.trans (sized_of_size? hsize t)
    exact .inl ⟨n, rfl, rfl⟩
  | none =>
    cases eq_unsized hsize
    rw [sized_unsized] at h
    cases hmemo : memoSize t with
    | error f =>
      rw [hmemo] at h
      cases h
    | ok n =>
      rw [hmemo] at h
      cases h
      exact .inr ⟨rfl, n, rfl, rfl⟩

theorem Faithful.sized {t : Table} {m m' : Memory} (hm : m.Faithful) (h : m.sized t = .ok m') :
    m'.Faithful := by
  rcases sized_cases h with ⟨n, -, rfl⟩ | ⟨-, n, -, rfl⟩
  · exact hm
  · exact ofSize_faithful n

theorem sized_texts {t : Table} {m m' : Memory} (h : m.sized t = .ok m') : m'.texts = m.texts := by
  rcases sized_cases h with ⟨n, -, rfl⟩ | ⟨rfl, n, -, rfl⟩
  · rfl
  · exact ofSize_texts n

/-! ## Readings -/

/-- What a reading can do: it stays without a size, answers from the memo, or reads the text afresh. -/
theorem read_cases (t : Table) (s : String) (m : Memory) :
    (∃ f, m.sized t = .error f ∧ m.read t s = (.error f, m)) ∨
    (∃ memo e, m.sized t = .ok (.memo memo) ∧ (s, e) ∈ memo.entries ∧
      m.read t s = (.ok e, .memo (memo.hit s e))) ∨
    (∃ memo e, m.sized t = .ok (.memo memo) ∧ s ∉ memo.texts ∧ readAfresh t s = .ok e ∧
      m.read t s = (.ok e, .memo (memo.miss.store s e))) ∨
    (∃ memo f, m.sized t = .ok (.memo memo) ∧ readAfresh t s = .error f ∧
      m.read t s = (.error f, .memo memo.miss)) ∨
    (m.sized t = .ok .off ∧ m.read t s = (readAfresh t s, .off)) := by
  unfold read
  cases hsized : m.sized t with
  | error f => exact .inl ⟨f, rfl, rfl⟩
  | ok m' =>
    cases m' with
    | unsized =>
      rcases sized_cases hsized with ⟨n, hn, rfl⟩ | ⟨-, n, -, hn⟩
      · cases hn
      · have hsize := (ofSize_size? n).symm.trans (congrArg size? hn.symm)
        cases hsize
    | off => exact .inr (.inr (.inr (.inr ⟨rfl, rfl⟩)))
    | memo memo =>
      cases hlookup : List.lookup s memo.entries with
      | some e =>
        exact .inr (.inl ⟨memo, e, rfl, Memo.mem_of_lookup hlookup, by simp only [hlookup]⟩)
      | none =>
        cases hread : readAfresh t s with
        | ok e =>
          exact .inr (.inr (.inl ⟨memo, e, rfl, Memo.not_mem_texts hlookup, rfl,
            by simp only [hlookup]⟩))
        | error f => exact .inr (.inr (.inr (.inl ⟨memo, f, rfl, rfl, by simp only [hlookup]⟩)))

theorem readAfresh_of_debugging {t : Table} {b : Bool}
    (h : debugging (flag t) (flag t .debugParsing) = .ok b) (s : String) :
    readAfresh t s = readText s := by
  rw [readAfresh, h]
  rfl

theorem readText_of_readAfresh {t : Table} {s : String} {e : Expr.Expression}
    (h : readAfresh t s = .ok e) : readText s = .ok e := by
  obtain ⟨_, -, hread⟩ := bind_eq_ok h
  exact hread

theorem Faithful.read {m : Memory} (h : m.Faithful) (t : Table) (s : String) :
    (m.read t s).2.Faithful := by
  rcases read_cases t s m with ⟨f, -, hread⟩ | ⟨memo, e, hsized, hmem, hread⟩ |
    ⟨memo, e, hsized, hnew, hfresh, hread⟩ | ⟨memo, f, hsized, -, hread⟩ | ⟨-, hread⟩
  · rw [hread]
    exact h
  · have hmemo : memo.Faithful := h.sized hsized
    rw [hread]
    exact hmemo.hit hmem
  · have hmemo : memo.Faithful := h.sized hsized
    rw [hread]
    exact hmemo.miss.store hnew (readText_of_readAfresh hfresh)
  · have hmemo : memo.Faithful := h.sized hsized
    rw [hread]
    exact hmemo.miss
  · rw [hread]
    trivial

theorem read_size? {t : Table} {m m' : Memory} (h : m.sized t = .ok m') (s : String) :
    (m.read t s).2.size? = m'.size? := by
  rcases read_cases t s m with ⟨f, hsized, hread⟩ | ⟨memo, e, hsized, -, hread⟩ |
    ⟨memo, e, hsized, -, -, hread⟩ | ⟨memo, f, hsized, -, hread⟩ | ⟨hsized, hread⟩
  · cases hsized.symm.trans h
  all_goals
    cases hsized.symm.trans h
    exact congrArg (fun result => size? result.2) hread

/-- With debug switches that can be read, nothing tells a memory that has a size from none. -/
theorem Faithful.read_fst {m m' : Memory} (h : m.Faithful) {t : Table} (hsized : m.sized t = .ok m')
    {b : Bool} (hdebug : debugging (flag t) (flag t .debugParsing) = .ok b) (s : String) :
    (m.read t s).1 = readAfresh t s := by
  rcases read_cases t s m with ⟨f, hfail, hread⟩ | ⟨memo, e, hmemo, hmem, hread⟩ |
    ⟨memo, e, -, -, hfresh, hread⟩ | ⟨memo, f, -, hfresh, hread⟩ | ⟨-, hread⟩
  · cases hfail.symm.trans hsized
  · have hfaithful : memo.Faithful := h.sized hmemo
    rw [hread, readAfresh_of_debugging hdebug, hfaithful.right s e hmem]
  · rw [hread, hfresh]
  · rw [hread, hfresh]
  · rw [hread]

/-- A reading that fails stores nothing and gives nothing up. -/
theorem read_fails {m : Memory} {t : Table} {s : String} {f : Fault}
    (h : (m.read t s).1 = .error f) : (m.read t s).2.texts = m.texts := by
  rcases read_cases t s m with ⟨f', -, hread⟩ | ⟨memo, e, -, -, hread⟩ |
    ⟨memo, e, -, -, -, hread⟩ | ⟨memo, f', hsized, -, hread⟩ | ⟨hsized, hread⟩
  · rw [hread]
  · rw [hread] at h
    cases h
  · rw [hread] at h
    cases h
  · have htexts := sized_texts hsized
    rw [hread]
    exact htexts
  · have htexts := sized_texts hsized
    rw [hread]
    exact htexts

end Memory

/-! ## Sizes of settings -/

theorem value_error {t : Table} {k : Key} {f : Fault} (h : value t k = .error f) :
    f.classOf = .configuration := by
  unfold value at h
  split at h
  · cases h
    rfl
  · split at h
    · cases h
    · cases h
      rfl

theorem memoSize_of_refused {t : Table} {f : Fault} (h : value t .parseCacheSize = .error f) :
    memoSize t = .error f := by
  rw [memoSize, h]
  rfl

theorem memoSize_of_size {t : Table} {n : Nat} (h : value t .parseCacheSize = .ok (.int n)) :
    memoSize t = if n < memoLimit then .ok n else .error .tooLarge := by
  rw [memoSize, h]
  rfl

theorem Memory.sized_of_value {m : Memory} {t : Table} {n : Nat} (hm : m.size? = none)
    (hvalue : value t .parseCacheSize = .ok (.int n)) (hn : n < memoLimit) :
    m.sized t = .ok (.ofSize n) := by
  rw [eq_unsized hm, sized_unsized, memoSize_of_size hvalue, if_pos hn]
  rfl

namespace MemoryState

def run (state : MemoryState) (steps : List MemoryStep) : MemoryState :=
  steps.foldl (fun state step => (state.step step).2) state

theorem run_append (state : MemoryState) (steps later : List MemoryStep) :
    state.run (steps ++ later) = (state.run steps).run later :=
  List.foldl_append ..

theorem step_faithful {state : MemoryState} (h : state.memory.Faithful) (step : MemoryStep) :
    (state.step step).2.memory.Faithful := by
  cases step with
  | read d =>
    cases d with
    | text s => exact h.read state.settings s
    | _ => exact h
  | clear => trivial
  | override key d =>
    simp only [MemoryState.step]
    cases Key.ofDatum state.room key <;> exact h

theorem run_faithful {state : MemoryState} (h : state.memory.Faithful) (steps : List MemoryStep) :
    (state.run steps).memory.Faithful := by
  induction steps generalizing state with
  | nil => exact h
  | cons step steps ih => exact ih (step_faithful h step)

/-- Only a clearing takes the size away, and no step changes it. -/
theorem step_size? {state : MemoryState} {n : Nat} (h : state.memory.size? = some n)
    {step : MemoryStep} (hstep : step ≠ .clear) : (state.step step).2.memory.size? = some n := by
  cases step with
  | read d =>
    cases d with
    | text s => exact (Memory.read_size? (Memory.sized_of_size? h state.settings) s).trans h
    | _ => exact h
  | clear => exact absurd rfl hstep
  | override key d =>
    simp only [MemoryState.step]
    cases Key.ofDatum state.room key <;> exact h

theorem run_size? {state : MemoryState} {n : Nat} (h : state.memory.size? = some n)
    {steps : List MemoryStep} (hsteps : .clear ∉ steps) :
    (state.run steps).memory.size? = some n := by
  induction steps generalizing state with
  | nil => exact h
  | cons step steps ih =>
    have hstep : step ≠ .clear := fun heq => hsteps (heq ▸ List.mem_cons_self ..)
    exact ih (step_size? h hstep) fun hmem => hsteps (List.mem_cons_of_mem step hmem)

theorem run_unsized {state : MemoryState} (h : state.memory.size? = none)
    {steps : List MemoryStep} (hsteps : ∀ s, .read (.text s) ∉ steps) :
    (state.run steps).memory.size? = none := by
  induction steps generalizing state with
  | nil => exact h
  | cons step steps ih =>
    have hrest : ∀ s, .read (.text s) ∉ steps :=
      fun s hmem => hsteps s (List.mem_cons_of_mem step hmem)
    refine ih ?_ hrest
    cases step with
    | read d =>
      cases d with
      | text s => exact absurd (List.mem_cons_self ..) (hsteps s)
      | _ => exact h
    | clear => rfl
    | override key d =>
      simp only [MemoryState.step]
      cases Key.ofDatum state.room key <;> exact h

/-- What a reading does to a memory that stands in for no memory. -/
structure Recalls (state : MemoryState) (s : String) : Prop where
  /-- Once there is a size, in force or in the settings, the text is read as without the memory. -/
  transparent : ∀ b, debugging (flag state.settings) (flag state.settings .debugParsing) = .ok b →
    (state.memory.size? ≠ none ∨
      ∃ n : Nat, value state.settings .parseCacheSize = .ok (.int n) ∧ n < memoLimit) →
    (state.step (.read (.text s))).1 = (Memory.readAfresh state.settings s).map some
  /-- The first size that is found stays in force up to the next clearing. -/
  settled : ∀ n : Nat, state.memory.size? = none →
    value state.settings .parseCacheSize = .ok (.int n) → n < memoLimit →
    ∀ later, .clear ∉ later →
      ((state.step (.read (.text s))).2.run later).memory.size? = some n
  /-- If there is no size in force and none in the settings, there is none after it. -/
  refused : ∀ f, state.memory.size? = none → value state.settings .parseCacheSize = .error f →
    f.classOf = .configuration ∧ state.step (.read (.text s)) = (.error f, state)
  /-- A size that the settings admit and a memo does not is no size either. -/
  oversized : ∀ n : Nat, state.memory.size? = none →
    value state.settings .parseCacheSize = .ok (.int n) → memoLimit ≤ n →
    state.step (.read (.text s)) = (.error .tooLarge, state)
  failing : ∀ f, (state.step (.read (.text s))).1 = .error f →
    (state.step (.read (.text s))).2.memory.texts = state.memory.texts
  distinct : state.memory.texts.Nodup
  bounded : state.memory.texts.length ≤ state.memory.size?.getD 0

theorem step_unsized {state : MemoryState} (h : state.memory.size? = none) {f : Fault}
    (hsize : memoSize state.settings = .error f) (s : String) :
    state.step (.read (.text s)) = (.error f, state) := by
  obtain ⟨room, settings, memory⟩ := state
  cases Memory.eq_unsized h
  simp only [MemoryState.step, Memory.read, Memory.sized_unsized, hsize]
  rfl

theorem recalls_of_faithful {state : MemoryState} (h : state.memory.Faithful) (s : String) :
    state.Recalls s := by
  refine ⟨?_, ?_, ?_, ?_, ?_, h.texts_nodup, h.texts_length⟩
  · intro b hdebug hsize
    have hsized : ∃ m, state.memory.sized state.settings = .ok m := by
      cases hmemory : state.memory.size? with
      | some n => exact ⟨state.memory, Memory.sized_of_size? hmemory state.settings⟩
      | none =>
        obtain ⟨n, hvalue, hn⟩ := hsize.resolve_left (not_not_intro hmemory)
        exact ⟨.ofSize n, Memory.sized_of_value hmemory hvalue hn⟩
    obtain ⟨m, hm⟩ := hsized
    exact congrArg (Except.map some) (h.read_fst hm hdebug s)
  · intro n hnone hvalue hn later hlater
    refine run_size? ?_ hlater
    have hsized := Memory.sized_of_value hnone hvalue hn
    exact (Memory.read_size? hsized s).trans (Memory.ofSize_size? n)
  · intro f hnone hvalue
    exact ⟨value_error hvalue, step_unsized hnone (memoSize_of_refused hvalue) s⟩
  · intro n hnone hvalue hn
    refine step_unsized hnone ?_ s
    rw [memoSize_of_size hvalue, if_neg (Nat.not_lt.mpr hn)]
  · intro f hfails
    cases hread : (state.memory.read state.settings s).1 with
    | ok e =>
      simp only [MemoryState.step, hread] at hfails
      cases hfails
    | error f' => exact Memory.read_fails hread

/-- Whatever was read, cleared and overridden since the start, texts are read as if nothing were
remembered, and the memory has no size but the one that the first reading found since it was last
without one. -/
theorem run_recalls (room : Room) (overrides : Table) (steps : List MemoryStep) :
    (∀ s, ((ofOverrides room overrides).run steps).Recalls s) ∧
    ∀ waiting, (steps = [] ∨ ∃ earlier, steps = earlier ++ [.clear]) →
      (∀ s, .read (.text s) ∉ waiting) →
      ((ofOverrides room overrides).run (steps ++ waiting)).memory.size? = none := by
  refine ⟨fun s => ?_, fun waiting hsteps hwaiting => ?_⟩
  · have hstart : (ofOverrides room overrides).memory.Faithful := trivial
    exact recalls_of_faithful (run_faithful hstart steps) s
  · rw [run_append]
    refine run_unsized ?_ hwaiting
    rcases hsteps with rfl | ⟨earlier, rfl⟩
    · rfl
    · rw [run_append]
      rfl

/-- A size is refused only by the memo that is made with it. -/
theorem run_recalls_oversized :
    let state := (ofOverrides (.ample 0) []).run [.override (.text "parse_cache_size") (.int memoLimit)]
    value state.settings .parseCacheSize = .ok (.int memoLimit) ∧
      (state.step (.read (.text "2020"))).1 = .error .tooLarge := by
  intro state
  have hvalue : value state.settings .parseCacheSize = .ok (.int memoLimit) := by rfl
  have hrecalls := (run_recalls (.ample 0) []
    [.override (.text "parse_cache_size") (.int memoLimit)]).1 "2020"
  refine ⟨hvalue, ?_⟩
  rw [hrecalls.oversized memoLimit rfl hvalue (Nat.le_refl _)]

end MemoryState

end DateSpan.Settings
