import DateSpan.Proofs.Settings.Precedence
import Mathlib.Data.List.Induction

/-! Tables laid over one another in order, as the files and then the overrides are. Under each name stands
what was given last, and where that is a table, all tables given since something else was, laid over one
another by the same rule. -/

namespace DateSpan.Table

open Settings

/-! ## Names -/

def Distinct (t : Table) : Prop :=
  t.names.Pairwise fun m n => ¬ m.Same n

/-- No name stands twice in the table, nor in any table that stands in it. -/
inductive Proper : Table → Prop
  | of {t : Table} : t.Distinct → (∀ name u, (name, .dict u) ∈ t → Proper u) → Proper t

theorem Proper.distinct {t : Table} (h : t.Proper) : t.Distinct := by
  cases h with
  | of hnames => exact hnames

theorem mem_under {t : Table} {name d : Datum} :
    d ∈ t.under name ↔ ∃ n, n.Same name ∧ (n, d) ∈ t := by
  unfold under
  rw [List.mem_filterMap]
  constructor
  · intro ⟨⟨n, d'⟩, hmem, hd⟩
    dsimp only at hd
    by_cases hn : n.Same name
    · rw [if_pos hn] at hd
      cases hd
      exact ⟨n, hn, hmem⟩
    · rw [if_neg hn] at hd
      cases hd
  · rintro ⟨n, hn, hmem⟩
    exact ⟨(n, d), hmem, if_pos hn⟩

theorem under_eq_nil {t : Table} {name : Datum} (h : ∀ n ∈ t.names, ¬ n.Same name) :
    t.under name = [] := by
  rw [List.eq_nil_iff_forall_not_mem]
  intro d hd
  obtain ⟨n, hn, hmem⟩ := mem_under.mp hd
  exact h n (List.mem_map_of_mem hmem) hn

theorem get?_eq_none {t : Table} {name : Datum} (h : ∀ n ∈ t.names, ¬ n.Same name) :
    t.get? name = none := by
  rw [get?_eq_head?, under_eq_nil h, List.head?_nil]

/-- A name has one datum at most. -/
theorem under_eq_toList {t : Table} (h : t.Distinct) (name : Datum) :
    t.under name = (t.get? name).toList := by
  induction t with
  | nil => rfl
  | cons e t ih =>
    obtain ⟨n, d⟩ := e
    obtain ⟨hn, ht⟩ := List.pairwise_cons.mp h
    rw [under_cons, get?]
    split
    · rename_i heq
      have hrest : under t name = [] :=
        under_eq_nil fun m hm hsame => hn m hm (heq.trans hsame.symm)
      rw [hrest, Option.toList_some]
    · exact ih ht

theorem get?_eq_some_iff {t : Table} (h : t.Distinct) {name d : Datum} :
    t.get? name = some d ↔ ∃ n, n.Same name ∧ (n, d) ∈ t := by
  rw [← mem_under, under_eq_toList h, Option.mem_toList]

theorem get?_of_mem {t : Table} (h : t.Distinct) {name d : Datum} (hd : (name, d) ∈ t) :
    t.get? name = some d :=
  (get?_eq_some_iff h).mpr ⟨name, name.same_refl, hd⟩

theorem Proper.get? {t u : Table} (h : t.Proper) {name : Datum}
    (hu : t.get? name = some (.dict u)) : u.Proper := by
  cases h with
  | of hnames hdata =>
    obtain ⟨n, -, hmem⟩ := (get?_eq_some_iff hnames).mp hu
    exact hdata n u hmem

/-! ## Laying over -/

/-- What is no table takes the place of what was there. -/
theorem overlay_plain {d : Datum} (h : ∀ u, d ≠ .dict u) (below : Option Datum) :
    Datum.overlay below d = d := by
  rcases overlay_cases below d with heq | ⟨_, u, -, rfl⟩
  · exact heq
  · exact absurd rfl (h u)

/-- Only on a table is a table laid name by name. -/
theorem overlay_table {below : Option Datum} (h : ∀ t, below ≠ some (.dict t)) (u : Table) :
    Datum.overlay below (.dict u) = .dict u := by
  unfold Datum.overlay
  split
  · exact absurd rfl (h _)
  · rfl

theorem overlay_none (d : Datum) : Datum.overlay none d = d := by
  cases d <;> rfl

theorem put_of_not_mem {t : Table} {name : Datum} (h : ∀ n ∈ t.names, ¬ n.Same name) (d : Datum) :
    t.put name d = t ++ [(name, d)] := by
  induction t with
  | nil => rfl
  | cons e t ih =>
    obtain ⟨n, d'⟩ := e
    obtain ⟨hn, ht⟩ := List.forall_mem_cons.mp h
    rw [put, if_neg hn, ih ht, List.cons_append]

theorem put_of_get? {t : Table} {name d : Datum} (h : t.get? name = some d) :
    t.put name d = t := by
  induction t with
  | nil => cases h
  | cons e t ih =>
    obtain ⟨n, d'⟩ := e
    rw [get?] at h
    rw [put]
    split at h
    · rename_i hn
      cases h
      rw [if_pos hn]
    · rename_i hn
      rw [if_neg hn, ih h]

/-- A table with other names comes after the first. -/
theorem merge_append {base t : Table} (h : Distinct (base ++ t)) : base.merge t = base ++ t := by
  unfold merge
  induction t generalizing base with
  | nil => rw [Datum.mergeEntries, List.append_nil]
  | cons e t ih =>
    obtain ⟨n, d⟩ := e
    have hn : ∀ m ∈ base.names, ¬ m.Same n := by
      intro m hmem
      rw [Distinct, names, List.map_append, List.pairwise_append] at h
      exact h.2.2 m hmem n (List.mem_cons_self ..)
    have hput : base.put n (Datum.overlay (base.get? n) d) = base ++ [(n, d)] := by
      rw [get?_eq_none hn, overlay_none, put_of_not_mem hn]
    rw [List.append_cons] at h ⊢
    rw [Datum.mergeEntries, hput, ih h]

theorem nil_merge {t : Table} (h : t.Distinct) : merge [] t = t := by
  have hall : Distinct ([] ++ t) := h
  exact merge_append hall

/-- A table stays as it is where it has in it already what is laid over it. -/
theorem merge_eq_self {base t : Table} (h : ∀ name d, (name, d) ∈ t →
    ∃ below, base.get? name = some below ∧ Datum.overlay (some below) d = below) :
    base.merge t = base := by
  unfold merge
  induction t with
  | nil => rw [Datum.mergeEntries]
  | cons e t ih =>
    obtain ⟨n, d⟩ := e
    obtain ⟨below, hbelow, hover⟩ := h n d (List.mem_cons_self ..)
    rw [Datum.mergeEntries, hbelow, hover, put_of_get? hbelow]
    exact ih fun name d' hd => h name d' (List.mem_cons_of_mem _ hd)

/-- Laying a table over again changes nothing. -/
def Settled (t : Table) : Prop :=
  ∀ base : Table, (base.merge t).merge t = base.merge t

theorem overlay_overlay {d : Datum} (h : ∀ u, d = .dict u → Distinct u ∧ Settled u)
    (below : Option Datum) :
    Datum.overlay (some (Datum.overlay below d)) d = Datum.overlay below d := by
  by_cases htable : ∃ u, d = .dict u
  · obtain ⟨u, rfl⟩ := htable
    obtain ⟨hnames, htwice⟩ := h u rfl
    by_cases hbelow : ∃ t, below = some (.dict t)
    · obtain ⟨t, rfl⟩ := hbelow
      exact congrArg Datum.dict (htwice t)
    · have hself := htwice []
      rw [nil_merge hnames] at hself
      rw [overlay_table (not_exists.mp hbelow)]
      exact congrArg Datum.dict hself
  · have hplain := overlay_plain (not_exists.mp htable)
    rw [hplain, hplain]

/-- By induction on the tables that stand in the table. -/
theorem Proper.settled {t : Table} (h : t.Proper) : Settled t := by
  induction h with
  | @of t hnames hdata ih =>
    intro base
    apply merge_eq_self
    intro name d hd
    refine ⟨Datum.overlay (base.get? name) d, ?_, overlay_overlay ?_ _⟩
    · rw [get?_merge, under_eq_toList hnames, get?_of_mem hnames hd]
      rfl
    · rintro u rfl
      exact ⟨(hdata name u hd).distinct, ih name u hd⟩

/-! ## Layers -/

/-- What tables come to, laid over an empty one in order. -/
def layered (ts : List Table) : Table :=
  ts.foldl merge []

/-- The data that tables have under a name, in order. -/
def given (ts : List Table) (name : Datum) : List Datum :=
  ts.filterMap (·.get? name)

/-- The run is the longest one of tables that the data end in. -/
structure EndsIn (data front : List Datum) (run : List Table) : Prop where
  data_eq : data = front ++ run.map .dict
  longest : ∀ t, front.getLast? ≠ some (.dict t)

theorem exists_endsIn (data : List Datum) : ∃ front run, EndsIn data front run := by
  induction data using List.reverseRecOn with
  | nil => exact ⟨[], [], rfl, nofun⟩
  | append_singleton data d ih =>
    by_cases htable : ∃ u, d = .dict u
    · obtain ⟨u, rfl⟩ := htable
      obtain ⟨front, run, rfl, hlongest⟩ := ih
      exact ⟨front, run ++ [u], by simp, hlongest⟩
    · refine ⟨data ++ [d], [], by simp, ?_⟩
      intro u hu
      rw [List.getLast?_concat] at hu
      exact htable ⟨u, Option.some.inj hu⟩

/-- Data that end in no table come to the last of them. -/
theorem laid_plain {data : List Datum} (h : ∀ t, data.getLast? ≠ some (.dict t)) :
    laid none data = data.getLast? := by
  cases hlast : data.getLast? with
  | none =>
    rw [List.getLast?_eq_none_iff.mp hlast]
    rfl
  | some d =>
    obtain ⟨below, hlaid⟩ := exists_laid hlast none
    rw [hlaid, overlay_plain]
    rintro u rfl
    exact h u hlast

theorem laid_tables (u : Table) (us : List Table) :
    laid (some (.dict u)) (us.map .dict) = some (.dict (us.foldl merge u)) := by
  induction us generalizing u with
  | nil => rfl
  | cons v us ih => exact ih (u.merge v)

theorem layered_cons {u : Table} (h : u.Distinct) (us : List Table) :
    layered (u :: us) = us.foldl merge u := by
  rw [layered, List.foldl_cons, nil_merge h]

theorem laid_run {data front : List Datum} {u : Table} {us : List Table}
    (h : EndsIn data front (u :: us)) (hu : u.Distinct) :
    laid none data = some (.dict (layered (u :: us))) := by
  obtain ⟨rfl, hlongest⟩ := h
  rw [layered_cons hu, ← laid_tables u us, ← overlay_table hlongest u, ← laid_plain hlongest]
  exact List.foldl_append

theorem get?_layered {ts : List Table} (h : ∀ t ∈ ts, t.Proper) (name : Datum) :
    (layered ts).get? name = laid none (given ts name) := by
  have hgiven : ts.flatMap (fun t => t.under name) = given ts name := by
    rw [given, List.filterMap_eq_flatMap_toList]
    exact List.flatMap_congr fun t ht => under_eq_toList (h t ht).distinct name
  rw [layered, get?_foldl_merge, hgiven]
  rfl

theorem isSome_laid {data : List Datum} : (laid none data).isSome ↔ data ≠ [] := by
  cases hlast : data.getLast? with
  | none =>
    rw [List.getLast?_eq_none_iff.mp hlast]
    exact ⟨nofun, fun h => absurd rfl h⟩
  | some d =>
    obtain ⟨below, hlaid⟩ := exists_laid hlast none
    rw [hlaid]
    exact ⟨fun _ => List.ne_nil_of_mem (List.mem_of_getLast? hlast), fun _ => rfl⟩

theorem mem_given {ts : List Table} {name d : Datum} :
    d ∈ given ts name ↔ ∃ t ∈ ts, t.get? name = some d :=
  List.mem_filterMap

theorem has_layered {ts : List Table} (h : ∀ t ∈ ts, t.Proper) (name : Datum) :
    (layered ts).has name ↔ ∃ t ∈ ts, t.has name := by
  rw [has, get?_layered h, isSome_laid]
  constructor
  · intro hne
    obtain ⟨d, hd⟩ := List.exists_mem_of_ne_nil _ hne
    obtain ⟨t, ht, hd⟩ := mem_given.mp hd
    exact ⟨t, ht, Option.isSome_of_mem hd⟩
  · rintro ⟨t, ht, hhas⟩
    obtain ⟨d, hd⟩ := Option.isSome_iff_exists.mp hhas
    exact List.ne_nil_of_mem (mem_given.mpr ⟨t, ht, hd⟩)

theorem EndsIn.proper {ts : List Table} (h : ∀ t ∈ ts, t.Proper) {name : Datum}
    {front : List Datum} {run : List Table} (hends : EndsIn (given ts name) front run) :
    ∀ t ∈ run, t.Proper := by
  intro t ht
  have hgiven : .dict t ∈ given ts name := by
    rw [hends.data_eq]
    exact List.mem_append_right _ (List.mem_map_of_mem ht)
  obtain ⟨u, hu, hget⟩ := mem_given.mp hgiven
  exact (h u hu).get? hget

theorem layered_twice {before after : List Table} {t : Table} (h : t.Proper) :
    layered (before ++ t :: t :: after) = layered (before ++ t :: after) := by
  simp only [layered, List.foldl_append, List.foldl_cons]
  rw [h.settled]

/-- What stands under each name when tables were laid over an empty one in order. The names are those of
the tables. Under each stands the last datum given, if that is no table, and otherwise what the longest run
of tables that was given last comes to in the same way. To lay a table over twice in a row changes
nothing. -/
theorem layered_rule {ts : List Table} (h : ∀ t ∈ ts, t.Proper) :
    (∀ name, (layered ts).has name ↔ ∃ t ∈ ts, t.has name) ∧
    (∀ name, (∃ front run, EndsIn (given ts name) front run) ∧
      ∀ front run, EndsIn (given ts name) front run →
        (run = [] → (layered ts).get? name = (given ts name).getLast?) ∧
        (run ≠ [] → (layered ts).get? name = some (.dict (layered run)) ∧ ∀ t ∈ run, t.Proper)) ∧
    ∀ before t after, ts = before ++ t :: after → layered (before ++ t :: t :: after) = layered ts := by
  refine ⟨has_layered h, fun name => ⟨exists_endsIn _, fun front run hends => ?_⟩, ?_⟩
  · have hrun := hends.proper h
    rw [get?_layered h]
    cases run with
    | nil =>
      have hfront : given ts name = front := by simpa using hends.data_eq
      exact ⟨fun _ => laid_plain (hfront ▸ hends.longest), nofun⟩
    | cons u us =>
      exact ⟨nofun, fun _ => ⟨laid_run hends (hrun u (List.mem_cons_self ..)).distinct, hrun⟩⟩
  · rintro before t after rfl
    exact layered_twice (h t (List.mem_append_right _ (List.mem_cons_self ..)))

/-- A number between tables parts them, and those after it come to one table. -/
theorem layered_rule_parted :
    let ts : List Table := [[("a", .dict [("x", .int 1)])], [("a", .int 5)],
      [("a", .dict [("y", .int 1)])], [("a", .dict [("z", .dict [])])]]
    (∀ t ∈ ts, t.Proper) ∧
      (layered ts).get? "a" = some (.dict [("y", .int 1), ("z", .dict [])]) ∧
      let last : Table := [("a", .dict [("z", .dict [])])]
      layered (ts ++ [last]) = layered ts := by
  intro ts
  have hsingle : ∀ name d, Distinct [(name, d)] := fun _ _ => List.pairwise_singleton ..
  have hnil : Proper [] := .of List.Pairwise.nil (by simp)
  have hnumber : ∀ name n, Proper [(name, .int n)] := fun name n => .of (hsingle name _) (by simp)
  have htable : ∀ name {t : Table}, t.Proper → Proper [(name, .dict t)] := fun name t ht =>
    .of (hsingle name _) (by simpa using ht)
  have hproper : ∀ t ∈ ts, t.Proper := by
    simp only [ts, List.forall_mem_cons, List.not_mem_nil, false_implies, implies_true, and_true]
    exact ⟨htable _ (hnumber _ _), hnumber _ _, htable _ (hnumber _ _), htable _ (htable _ hnil)⟩
  obtain ⟨-, hdata, htwice⟩ := layered_rule hproper
  have hends : EndsIn (given ts "a") [.dict [("x", .int 1)], .int 5]
      [[("y", .int 1)], [("z", .dict [])]] := ⟨rfl, by simp⟩
  obtain ⟨hrun, -⟩ := ((hdata "a").2 _ _ hends).2 (List.cons_ne_nil _ _)
  refine ⟨hproper, hrun.trans rfl, htwice (ts.take 3) [("a", .dict [("z", .dict [])])] [] rfl⟩

end DateSpan.Table
