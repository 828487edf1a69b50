import DateSpan.Version.Coercion

/-! Anchors from data: an anchor, a table with a version, or a version, which gives a closed one. -/

namespace DateSpan.Anchor

/-- The anchor at a version; any datum tells by its truth whether it is open. -/
def make (p : Policy) (version isOpen : Datum) : Except Fault Anchor := do
  return ⟨← Version.ofDatum p version, isOpen.truthy⟩

def ofDatum (p : Policy) : Datum → Except Fault Anchor
  | .anchor a => .ok a
  | .dict t =>
    match Table.get? t "version" with
    | some version => make p version ((Table.get? t "open").getD (.bool false))
    | none => .error .anchorWithoutVersion
  | d => make p d (.bool false)

def ofEnd (p : Policy) : Datum → Except Fault (Option Anchor)
  | .null => .ok none
  | d => (ofDatum p d).map some

end DateSpan.Anchor
