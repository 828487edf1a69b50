import DateSpan.Proofs.Outcome
import DateSpan.Proofs.Range.Comparison
import DateSpan.Spec.Coercion

/-! Joined texts. Texts of single values with signs between them denote the ranges that the texts denote
one by one, and fail as the first of them that denotes none. -/

namespace DateSpan

namespace Expr

open Text

/-- The texts, with blanks around them and a sign between each two. -/
inductive Joins : List String → List Char → Prop
  | single {t before after} : Blank before → Blank after →
      Joins [t] (before ++ (t.toList ++ after))
  | cons {t ts before after sign cs} : Blank before → Blank after → Token.Spelled .orSign sign →
      Joins ts cs → Joins (t :: ts) (before ++ (t.toList ++ (after ++ (sign ++ cs))))

theorem not_longNumber_orSign {l : List Char} (h : Token.Spelled .orSign l) : ¬ LongNumber l := by
  intro hlong
  obtain ⟨a, ha, -⟩ := h.duration_of_long hlong
  cases ha

/-- A text that is read as one value starts with the words of it, whatever comes after the blanks
that it ends with. -/
theorem read_words {t : String} {v : Value} (h : read t = .ok ⟨v, []⟩) :
    ∃ ts ls used rest, v.Form ts ∧ t.toList = used ++ rest ∧ Blank rest ∧
      (∀ more, Words ts ls (used ++ more) more) ∧ ∀ l ∈ ls, ¬ LongNumber l := by
  obtain ⟨ts, ls, ⟨⟨rest, hwords, hrest⟩, hform⟩, hshort⟩ := read_eq_ok_iff.mp h
  obtain ⟨used, hused, hfront⟩ := hwords.front
  cases hform with
  | single hv => exact ⟨ts, ls, used, rest, hv, hused, hrest, hfront, hshort⟩
  | cons _ hmore => cases hmore

/-- The words of joined texts are those of the texts with the signs between them. -/
theorem Joins.words {texts : List String} {vs : List Value} {cs : List Char}
    (hjoins : Joins texts cs) (hread : List.Forall₂ (fun t v => read t = .ok ⟨v, []⟩) texts vs) :
    ∃ ts ls rest, Values.Form vs ts ∧ Words ts ls cs rest ∧ Blank rest ∧
      ∀ l ∈ ls, ¬ LongNumber l := by
  induction hjoins generalizing vs with
  | @single t before after hbefore hafter =>
    cases hread with
    | cons ht hnil =>
      cases hnil
      obtain ⟨ts, ls, used, rest, hform, htext, hrest, hwords, hshort⟩ := read_words ht
      obtain ⟨u, us, rfl, -⟩ := hform.cons
      refine ⟨_, ls, rest ++ after, .single hform, ?_, hrest.append hafter, hshort⟩
      rw [htext, List.append_assoc]
      exact (hwords (rest ++ after)).blanks hbefore
  | @cons t texts before after sign cs hbefore hafter hsign _ ih =>
    cases hread with
    | cons ht hmore =>
      obtain ⟨ts, ls, used, rest, hform, htext, hrest, hwords, hshort⟩ := read_words ht
      obtain ⟨us, ms, tail, hforms, hrow, htail, hshorts⟩ := ih hmore
      obtain ⟨u, us', rfl, -⟩ := hform.cons
      have hsigned : Words (.orSign :: us) (sign :: ms) (sign ++ cs) tail := .front_cons hsign hrow
      have hrow' := (hwords _).append (hsigned.blanks (hrest.append hafter))
      refine ⟨_, ls ++ sign :: ms, tail, .cons hform hforms, ?_, htail, ?_⟩
      · have htexts : t.toList ++ (after ++ (sign ++ cs)) =
            used ++ ((rest ++ after) ++ (sign ++ cs)) := by
          simp only [htext, List.append_assoc]
        rw [htexts]
        exact hrow'.blanks hbefore
      · intro l hl
        rcases List.mem_append.mp hl with hl | hl
        · exact hshort l hl
        · rcases List.mem_cons.mp hl with rfl | hl
          · exact not_longNumber_orSign hsign
          · exact hshorts l hl

/-- Joined texts are read as the values of the texts, in order. -/
theorem read_joined {texts : List String} {vs : List Value} {s : String}
    (hjoins : Joins texts s.toList)
    (hread : List.Forall₂ (fun t v => read t = .ok ⟨v, []⟩) texts vs) :
    ∃ e, read s = .ok e ∧ e.values = vs := by
  obtain ⟨ts, ls, rest, hform, hwords, hrest, hshort⟩ := hjoins.words hread
  cases vs with
  | nil => cases hform
  | cons v vs =>
    exact ⟨⟨v, vs⟩, read_eq_ok_iff.mpr ⟨ts, ls, ⟨⟨rest, hwords, hrest⟩, hform⟩, hshort⟩, rfl⟩

end Expr

variable {p : Policy}

theorem Policy.read_eq_ok {s : String} {e : Expr.Expression} :
    p.read s = .ok e ↔ (∃ b, p.parsing = .ok b) ∧ Expr.read s = .ok e := by
  have htext : Settings.readText s = .ok e ↔ Expr.read s = .ok e := by
    unfold Settings.readText
    split <;> simp_all
  constructor
  · intro h
    obtain ⟨b, hb, hread⟩ := bind_eq_ok h
    exact ⟨⟨b, hb⟩, htext.mp hread⟩
  · rintro ⟨⟨b, hb⟩, hread⟩
    rw [read, hb]
    exact htext.mpr hread

theorem Range.ofText_of_single {t : String} {v : Expr.Value} (h : p.read t = .ok ⟨v, []⟩) :
    ofText p t = ofValue p v := by
  rw [ofText, h]
  rfl

namespace Spec

theorem ofData_texts (p : Policy) (texts : List String) :
    ofData p (texts.map .text) = texts.mapM (Range.ofText p) >>= ofRanges := by
  rw [ofData, List.mapM_map]
  rfl

theorem exists_values {texts : List String} (h : ∀ t ∈ texts, ∃ v, p.read t = .ok ⟨v, []⟩) :
    ∃ vs, List.Forall₂ (fun t v => p.read t = .ok ⟨v, []⟩) texts vs := by
  induction texts with
  | nil => exact ⟨[], .nil⟩
  | cons t texts ih =>
    obtain ⟨v, hv⟩ := h t (List.mem_cons_self ..)
    obtain ⟨vs, hvs⟩ := ih fun u hu => h u (List.mem_cons_of_mem t hu)
    exact ⟨v :: vs, .cons hv hvs⟩

theorem ofText_joined {texts : List String} {s : String} (hjoins : Expr.Joins texts s.toList)
    (hread : ∀ t ∈ texts, ∃ v, p.read t = .ok ⟨v, []⟩) :
    ofText p s = texts.mapM (Range.ofText p) >>= ofRanges := by
  obtain ⟨vs, hvs⟩ := exists_values hread
  have htexts : List.Forall₂ (fun t v => Expr.read t = .ok ⟨v, []⟩) texts vs :=
    hvs.imp fun _ _ h => (Policy.read_eq_ok.mp h).2
  obtain ⟨e, he, hvalues⟩ := Expr.read_joined hjoins htexts
  have hparsing : ∃ b, p.parsing = .ok b := by
    cases hvs with
    | nil => cases hjoins
    | cons ht => exact (Policy.read_eq_ok.mp ht).1
  have hranges : texts.mapM (Range.ofText p) = vs.mapM (Range.ofValue p) :=
    mapM_congr_forall₂ (hvs.imp fun _ _ h => Range.ofText_of_single h)
  rw [ofText, Policy.read_eq_ok.mpr ⟨hparsing, he⟩, hranges, ← hvalues]
  rfl

/-- A text of several values joined denotes what the texts of the values denote in a list: their
ranges in order, or the fault of the first that denotes none. -/
theorem ofDatum_joined (p : Policy) {texts : List String} {s : String}
    (hjoins : Expr.Joins texts s.toList) (hread : ∀ t ∈ texts, ∃ v, p.read t = .ok ⟨v, []⟩) :
    ofDatum p (.text s) = ofDatum p (.list (texts.map .text)) ∧
    (∀ ranges, List.Forall₂ (fun t r => Range.ofText p t = .ok r) texts ranges →
      ∃ spec, ofDatum p (.text s) = .ok spec ∧ spec.ranges = ranges) ∧
    ∀ before t after f, texts = before ++ t :: after →
      (∀ u ∈ before, ∃ r, Range.ofText p u = .ok r) → Range.ofText p t = .error f →
      ofDatum p (.text s) = .error f := by
  have htext : ofDatum p (.text s) = texts.mapM (Range.ofText p) >>= ofRanges :=
    ofText_joined hjoins hread
  refine ⟨?_, fun ranges hranges => ?_, fun before t after f hsplit hbefore ht => ?_⟩
  · rw [htext]
    exact (ofData_texts p texts).symm
  · have hne : ranges ≠ [] := by
      rintro rfl
      cases hranges
      cases hjoins
    refine ⟨⟨ranges, hne⟩, ?_, rfl⟩
    rw [htext, mapM_eq_ok_iff.mpr hranges]
    exact dif_neg hne
  · rw [htext, mapM_eq_error_iff.mpr ⟨before, t, after, hsplit, hbefore, ht⟩]
    rfl

theorem ofDatum_joined_years :
    Expr.Joins ["1970", "1970"] " 1970|| 1970".toList ∧
    (∀ t ∈ ["1970", "1970"], ∃ v, Policy.plain.read t = .ok ⟨v, []⟩) ∧
    ofDatum .plain (.text " 1970|| 1970") =
      ofDatum .plain (.list [.text "1970", .text "1970"]) := by
  have hblank : Expr.Blank [' '] := by
    intro c hc
    rw [List.mem_singleton.mp hc]
    rfl
  have hlast : Expr.Joins ["1970"] ([' '] ++ ("1970".toList ++ [])) := .single hblank nofun
  have hjoins : Expr.Joins ["1970", "1970"] " 1970|| 1970".toList := by
    have htext : " 1970|| 1970".toList = [' '] ++ ("1970".toList ++
        ([] ++ (['|', '|'] ++ ([' '] ++ ("1970".toList ++ []))))) := by decide
    rw [htext]
    exact .cons hblank nofun .double hlast
  have hread : ∀ t ∈ ["1970", "1970"], ∃ v, Policy.plain.read t = .ok ⟨v, []⟩ := by
    obtain ⟨ts, ls, hder⟩ := Range.derives_year
    obtain ⟨rest, hwords, -⟩ := hder.words
    have hshort : ∀ l ∈ ls, ¬ Text.LongNumber l := by
      refine hwords.short fun a ha => ?_
      cases hder.form with
      | single hform =>
        cases hform
        cases List.mem_singleton.mp ha
      | cons _ hmore => cases hmore
    intro t ht
    have htext : t = "1970" := by simpa using ht
    rw [htext]
    exact ⟨_, (Policy.read_eq_ok_iff Policy.plain_valid).mpr ⟨ts, ls, hder, hshort⟩⟩
  exact ⟨hjoins, hread, (ofDatum_joined .plain hjoins hread).1⟩

end Spec

end DateSpan
