import DateSpan.Version.Basic
import DateSpan.Fault

/-! Selecting versions from candidates that are made into versions one at a time. -/

namespace DateSpan.Selection

variable {α : Type}

/-- The candidates that satisfy, in their order, up to the first that is no version; and its fault. -/
def satisfying (make : α → Except Fault Version) (satisfies : Version → Bool) :
    List α → List Version × Option Fault
  | [] => ([], none)
  | c :: cs =>
    match make c with
    | .error f => ([], some f)
    | .ok v =>
      let (rest, fault) := satisfying make satisfies cs
      (if satisfies v then v :: rest else rest, fault)

/-- Of two versions the one kept by a choice; the first of equals. -/
def keep (better : Version → Version → Bool) (v w : Version) : Version :=
  if better w v then w else v

def best (make : α → Except Fault Version) (satisfies : Version → Bool)
    (better : Version → Version → Bool) (candidates : List α) : Except Fault (Option Version) :=
  candidates.foldlM (fun found c => do
    let v ← make c
    if satisfies v then return some (found.elim v fun w => keep better w v)
    return found) none

def latest? (make : α → Except Fault Version) (satisfies : Version → Bool) (candidates : List α) :
    Except Fault (Option Version) :=
  best make satisfies (fun v w => decide (w.seconds < v.seconds)) candidates

def earliest? (make : α → Except Fault Version) (satisfies : Version → Bool) (candidates : List α) :
    Except Fault (Option Version) :=
  best make satisfies (fun v w => decide (v.seconds < w.seconds)) candidates

end DateSpan.Selection
