/-! Decimal digits of every script, and the numbers written with them. -/

namespace DateSpan.Text

/-- Code points of the digits zero; the nine characters after each are the digits one to nine. -/
def zeroDigits : List Nat := [
  0x30, 0x660, 0x6F0, 0x7C0, 0x966, 0x9E6, 0xA66, 0xAE6, 0xB66, 0xBE6, 0xC66, 0xCE6, 0xD66, 0xDE6,
  0xE50, 0xED0, 0xF20, 0x1040, 0x1090, 0x17E0, 0x1810, 0x1946, 0x19D0, 0x1A80, 0x1A90, 0x1B50,
  0x1BB0, 0x1C40, 0x1C50, 0xA620, 0xA8D0, 0xA900, 0xA9D0, 0xA9F0, 0xAA50, 0xABF0, 0xFF10, 0x104A0,
  0x10D30, 0x11066, 0x110F0, 0x11136, 0x111D0, 0x112F0, 0x11450, 0x114D0, 0x11650, 0x116C0,
  0x11730, 0x118E0, 0x11950, 0x11C50, 0x11D50, 0x11DA0, 0x16A60, 0x16AC0, 0x16B50, 0x1D7CE,
  0x1D7D8, 0x1D7E2, 0x1D7EC, 0x1D7F6, 0x1E140, 0x1E2F0, 0x1E950, 0x1FBF0]

def digit? (c : Char) : Option Nat :=
  (zeroDigits.find? fun z => decide (z ≤ c.toNat) && decide (c.toNat < z + 10)).map (c.toNat - ·)

def digitRun : List Char → List Nat × List Char
  | [] => ([], [])
  | c :: cs =>
    match digit? c with
    | some d => (d :: (digitRun cs).1, (digitRun cs).2)
    | none => ([], c :: cs)

def ofDigits (digits : List Nat) : Nat :=
  digits.foldl (fun n d => 10 * n + d) 0

/-- Digits that a number may have at most, zeros in front included. -/
def maxDigits : Nat := 4300

def isWritable (n : Nat) : Bool :=
  decide (n < Nat.pow 10 maxDigits)

/-- Whether a run of more digits than a number may have stands in a text; `run` digits stand before
it. -/
def hasLongRun (run : Nat) : List Char → Bool
  | [] => decide (maxDigits < run)
  | c :: cs =>
    if (digit? c).isSome then hasLongRun (run + 1) cs
    else decide (maxDigits < run) || hasLongRun 0 cs

def hasLongNumber (cs : List Char) : Bool :=
  hasLongRun 0 cs

theorem length_digitRun (cs : List Char) :
    (digitRun cs).1.length + (digitRun cs).2.length = cs.length := by
  induction cs with
  | nil => rfl
  | cons c cs ih =>
    simp only [digitRun]
    split
    · simp only [List.length_cons]; omega
    · simp

theorem digit?_lt_ten {c : Char} {d : Nat} (h : digit? c = some d) : d < 10 := by
  simp only [digit?, Option.map_eq_some_iff] at h
  obtain ⟨z, hz, rfl⟩ := h
  have := List.find?_some hz
  simp only [Bool.and_eq_true, decide_eq_true_eq] at this
  omega

end DateSpan.Text
