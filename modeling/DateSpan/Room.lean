import DateSpan.Fault

/-! What the stack of a caller has room for. Nested data are written, compared, read and merged by
recursion, and how deep that can go depends on where the call is made. -/

namespace DateSpan

structure Room where
  shows : Datum → Bool
  compares : List Datum → Bool
  /-- Lists and tables that may stand within each other in a JSON text. -/
  reads : Nat
  copyFault : Table → Option Fault
  /-- What keeps a table from being merged with one that is laid over it. -/
  layFault : Table → Table → Option Fault

namespace Room

def ample (reads : Nat) : Room :=
  ⟨fun _ => true, fun _ => true, reads, fun _ => none, fun _ _ => none⟩

def copy (room : Room) (t : Table) : Except Fault Table :=
  (room.copyFault t).elim (.ok t) .error

def lay (room : Room) (base upper : Table) : Except Fault Table :=
  (room.layFault base upper).elim (.ok (base.merge upper)) .error

def merge (room : Room) (base upper : Table) : Except Fault Table := do
  room.lay (← room.copy base) upper

theorem lay_eq_ok {room : Room} {base upper t : Table} (h : room.lay base upper = .ok t) :
    t = base.merge upper := by
  unfold lay at h
  cases hfault : room.layFault base upper with
  | none =>
    rw [hfault] at h
    exact (Except.ok.inj h).symm
  | some f =>
    rw [hfault] at h
    cases h

theorem merge_eq_ok {room : Room} {base upper t : Table} (h : room.merge base upper = .ok t) :
    t = base.merge upper := by
  unfold merge copy at h
  cases hfault : room.copyFault base with
  | none =>
    rw [hfault] at h
    exact lay_eq_ok h
  | some f =>
    rw [hfault] at h
    cases h

end Room

namespace Datum

def quoted (room : Room) (d : Datum) : Except Fault String :=
  if d.isNested && !room.shows d then .error .nestedTooDeep
  else if d.isShowable then .ok d.shown
  else .error .longNumber

/-- The form in a message that has a place for one value. The items of a tuple are spread over the
places: the first is quoted before the others are found to have none. -/
def quotedAlone (room : Room) (d : Datum) : Except Fault String :=
  match d.tupleItems? with
  | none => d.quoted room
  | some [item] => item.quoted room
  | some [] => .error .argumentMismatch
  | some (item :: _) => do
    let _ ← item.quoted room
    throw .argumentMismatch

end Datum

end DateSpan
