import DateSpan.Expr.Reader
import DateSpan.Proofs.Text.Numeral

/-! The grammar of expression texts. A text is a row of words with blanks between them, each word
spells a token, and the tokens have the form of values with signs between them. -/

namespace DateSpan.Expr

open Text

/-! ## Words -/

/-- A number written with exactly so many digits. -/
def Places (width n : Nat) (cs : List Char) : Prop :=
  Numeral cs n ∧ cs.length = width

/-- How briefs are written. -/
inductive BriefText : Brief → List Char → Prop
  | year {y ys} : Places 4 y ys → BriefText (.year y) ys
  | month {y mo ys mos} : Places 4 y ys → Places 2 mo mos →
      BriefText (.month y mo) (ys ++ '-' :: mos)
  | day {y mo d ys mos ds} : Places 4 y ys → Places 2 mo mos → Places 2 d ds →
      BriefText (.day y mo d) (ys ++ '-' :: (mos ++ '-' :: ds))
  | hour {y mo d h ys mos ds hs} : Places 4 y ys → Places 2 mo mos → Places 2 d ds →
      Places 2 h hs → BriefText (.hour y mo d h) (ys ++ '-' :: (mos ++ '-' :: (ds ++ 'T' :: hs)))
  | minute {y mo d h mi ys mos ds hs mis} : Places 4 y ys → Places 2 mo mos → Places 2 d ds →
      Places 2 h hs → Places 2 mi mis →
      BriefText (.minute y mo d h mi)
        (ys ++ '-' :: (mos ++ '-' :: (ds ++ 'T' :: (hs ++ ':' :: mis))))
  | second {y mo d h mi s ys mos ds hs mis ss zone} : Places 4 y ys → Places 2 mo mos →
      Places 2 d ds → Places 2 h hs → Places 2 mi mis → Places 2 s ss →
      zone = [] ∨ zone = ['Z'] →
      BriefText (.second y mo d h mi s)
        (ys ++ '-' :: (mos ++ '-' :: (ds ++ 'T' :: (hs ++ ':' :: (mis ++ ':' :: (ss ++ zone))))))
  | compact {y mo d h mi s ys mos ds hs mis ss} : Places 4 y ys → Places 2 mo mos →
      Places 2 d ds → Places 2 h hs → Places 2 mi mis → Places 2 s ss →
      BriefText (.second y mo d h mi s) (ys ++ (mos ++ (ds ++ (hs ++ (mis ++ ss)))))

/-- How a count of a duration is written, if it is. -/
inductive CountText (designator : Char) : Option Nat → List Char → Prop
  | absent : CountText designator none []
  | written {n ds} : ds ≠ [] → Numeral ds n → CountText designator (some n) (ds ++ [designator])

/-- The time of a duration, if it is written, has a count. -/
inductive TimeText : Option Nat → Option Nat → Option Nat → List Char → Prop
  | absent : TimeText none none none []
  | written {h m s hs ms ss} : CountText 'H' h hs → CountText 'M' m ms → CountText 'S' s ss →
      (h.isSome ∨ m.isSome ∨ s.isSome) → TimeText h m s ('T' :: (hs ++ (ms ++ ss)))

/-- How durations are written: with one count at least. -/
inductive DurationText : Amounts → List Char → Prop
  | written {y mo d h m s ys mos ds ts} : CountText 'Y' y ys → CountText 'M' mo mos →
      CountText 'D' d ds → TimeText h m s ts →
      (y.isSome ∨ mo.isSome ∨ d.isSome ∨ h.isSome ∨ m.isSome ∨ s.isSome) →
      DurationText ⟨y, mo, d, h, m, s⟩ ('P' :: (ys ++ (mos ++ (ds ++ ts))))

inductive Token
  | brief (b : Brief)
  | duration (a : Amounts)
  | lowerSign (strict : Bool)
  | upperSign (strict : Bool)
  | comma
  | dots
  | side (s : Side)
  | orSign
  deriving DecidableEq, Repr

/-- The spellings of tokens. -/
inductive Token.Spelled : Token → List Char → Prop
  | brief {b cs} : BriefText b cs → Spelled (.brief b) cs
  | duration {a cs} : DurationText a cs → Spelled (.duration a) cs
  | greater : Spelled (.lowerSign true) ['>']
  | greaterOrEqual : Spelled (.lowerSign false) ['>', '=']
  | less : Spelled (.upperSign true) ['<']
  | lessOrEqual : Spelled (.upperSign false) ['<', '=']
  | comma : Spelled .comma [',']
  | dots : Spelled .dots ['.', '.']
  | plus : Spelled (.side .after) ['+']
  | minus : Spelled (.side .before) ['-']
  | single : Spelled .orSign ['|']
  | double : Spelled .orSign ['|', '|']

def Blank (cs : List Char) : Prop :=
  ∀ c ∈ cs, isBlank c

/-- The tokens, spelled in order by the lexemes, stand at the front of a text, each after any
blanks, and leave the rest of it. -/
inductive Words : List Token → List (List Char) → List Char → List Char → Prop
  | nil {rest} : Words [] [] rest rest
  | cons {blanks t l ts ls tail rest} : Blank blanks → Token.Spelled t l → Words ts ls tail rest →
      Words (t :: ts) (l :: ls) (blanks ++ (l ++ tail)) rest

/-! ## Forms -/

/-- The forms of values. -/
inductive Value.Form : Value → List Token → Prop
  | between {s b s' b'} :
      Form (.between ⟨s, b⟩ ⟨s', b'⟩) [.lowerSign s, .brief b, .upperSign s', .brief b']
  | betweenComma {s b s' b'} :
      Form (.between ⟨s, b⟩ ⟨s', b'⟩) [.lowerSign s, .brief b, .comma, .upperSign s', .brief b']
  | span {a b} : Form (.between ⟨false, a⟩ ⟨false, b⟩) [.brief a, .dots, .brief b]
  | lower {s b} : Form (.lower ⟨s, b⟩) [.lowerSign s, .brief b]
  | upper {s b} : Form (.upper ⟨s, b⟩) [.upperSign s, .brief b]
  | relative {b side a} : Form (.relative b side a) [.brief b, .side side, .duration a]
  | brief {b} : Form (.brief b) [.brief b]
  | duration {a} : Form (.duration a) [.duration a]

/-- Values with signs between them. -/
inductive Values.Form : List Value → List Token → Prop
  | single {v ts} : v.Form ts → Form [v] ts
  | cons {v vs ts us} : v.Form ts → Form vs us → Form (v :: vs) (ts ++ .orSign :: us)

/-- The words of the tokens make the whole text, and the tokens have the form of the expression. -/
structure Derivation (cs : List Char) (e : Expression) (ts : List Token) (ls : List (List Char)) :
    Prop where
  words : ∃ rest, Words ts ls cs rest ∧ Blank rest
  form : Values.Form e.values ts

/-- The grammar gives the expression for the text. -/
def Derives (cs : List Char) (e : Expression) : Prop :=
  ∃ ts ls, Derivation cs e ts ls

end DateSpan.Expr
