import DateSpan.Spec.Coercion

/-! Going through data, names that are looked for in them, and tables with data laid over them that may
be no tables. -/

namespace DateSpan

namespace Datum

def items : Datum → Except Fault (List Datum)
  | text s => .ok (s.toList.map fun c => text c.toString)
  | dict t => .ok (Table.names t)
  | d =>
    match Spec.itemsOf? d with
    | some ds => .ok ds
    | none => .error .argumentMismatch

/-- Whether a name is found in a datum: among the names of a table, as a text within a text, or among
the items of a list. Of a range or a spec it is asked whether what the name denotes lies in it. Other
data cannot be searched. -/
def mentions (p : Policy) (d name : Datum) : Except Fault Bool :=
  match d, name with
  | dict t, name => .ok (Table.has t name)
  | text s, text part => .ok (s.contains part)
  | text _, _ => .error .argumentMismatch
  | range r, name => r.includesDatum p name
  | spec s, name => s.includesDatum p name
  | d, name =>
    match Spec.itemsOf? d with
    | some ds => .ok (ds.any fun d => d.Same name)
    | none => .error .argumentMismatch

/-- What a datum holds under a name. Whatever counts as false holds nothing, and only out of a table
can be taken what is found. -/
def at? (p : Policy) (d name : Datum) : Except Fault (Option Datum) :=
  match d with
  | dict t => .ok (Table.get? t name)
  | d =>
    if d.truthy then do
      if ← d.mentions p name then throw .argumentMismatch
      return none
    else .ok none

end Datum

namespace Table

/-- A table with a datum laid over it, which must be a table too. The names of the first are looked
for in the second before its own are taken. -/
def mergeDatum (p : Policy) (base : Table) : Datum → Except Fault Table
  | .dict t => .ok (base.merge t)
  | d => do
    let _ ← base.names.mapM (d.mentions p)
    throw .missingPart

def mergeData (p : Policy) (base : Table) : List Datum → Except Fault (List Table)
  | [] => .ok []
  | d :: ds => do
    let t ← base.mergeDatum p d
    return t :: (← t.mergeData p ds)

end Table

end DateSpan
