import DateSpan.Settings.Policy

/-! Remembered readings of expression texts. The memory is sized when the first text is read, and
gives up the text that was used the longest ago. Only successful readings are kept. -/

namespace DateSpan.Settings

structure Memo where
  capacity : Nat
  hits : Nat
  misses : Nat
  entries : List (String × Expr.Expression)

namespace Memo

def empty (capacity : Nat) : Memo := ⟨capacity, 0, 0, []⟩

def hit (m : Memo) (s : String) (e : Expr.Expression) : Memo :=
  { m with hits := m.hits + 1, entries := (s, e) :: m.entries.filter fun (t, _) => t ≠ s }

def miss (m : Memo) : Memo :=
  { m with misses := m.misses + 1 }

/-- The memo with a new text, the oldest given up if it was full. -/
def store (m : Memo) (s : String) (e : Expr.Expression) : Memo :=
  { m with entries := ((s, e) :: m.entries).take m.capacity }

end Memo

/-- The memory of a reader: not sized yet, sized to nothing, or a memo. -/
inductive Memory
  | unsized
  | off
  | memo (m : Memo)

namespace Memory

def sized (t : Table) : Memory → Except Fault Memory
  | .unsized => (memoSize t).map fun n => if n = 0 then .off else .memo (.empty n)
  | m => .ok m

def readAfresh (t : Table) (s : String) : Except Fault Expr.Expression := do
  let _ ← debugging (flag t) (flag t .debugParsing)
  readText s

/-- Reads a text under the settings of a table. A memory that cannot be sized stays as it is. -/
def read (t : Table) (s : String) (memory : Memory) : Except Fault Expr.Expression × Memory :=
  match memory.sized t with
  | .error f => (.error f, memory)
  | .ok (.memo m) =>
    match List.lookup s m.entries with
    | some e => (.ok e, .memo (m.hit s e))
    | none =>
      match readAfresh t s with
      | .ok e => (.ok e, .memo (m.miss.store s e))
      | .error f => (.error f, .memo m.miss)
  | .ok m => (readAfresh t s, m)

def isSized : Memory → Bool
  | .unsized => false
  | _ => true

end Memory

inductive MemoryStep
  | read (d : Datum)
  | clear
  | override (key d : Datum)

structure MemoryState where
  room : Room
  settings : Table
  memory : Memory

namespace MemoryState

def ofOverrides (room : Room) (overrides : Table) : MemoryState :=
  ⟨room, Table.merge defaults overrides, .unsized⟩

def step (state : MemoryState) : MemoryStep → Except Fault (Option Expr.Expression) × MemoryState
  | .read (.text s) =>
    let (outcome, memory) := state.memory.read state.settings s
    (outcome.map some, { state with memory := memory })
  | .read d => (.error (.notText d.typeName), state)
  | .clear => (.ok none, { state with memory := .unsized })
  | .override key d =>
    match Key.ofDatum state.room key with
    | .ok k => (.ok none, { state with settings := state.settings.put k.name d })
    | .error f => (.error f, state)

end MemoryState

end DateSpan.Settings
