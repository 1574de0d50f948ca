import JobShell.Program.Sh.Feed
import JobShell.Program.Sh.Job

namespace JobShell.Program.Sh

def takeNotices : Work Unit := do
  let come ← (← get).traps.filterM fun t ↦ do
    match signalNumbered? t.1 with
    | some s => if t.2.isEmpty then pure false else ask (.takeNotice s)
    | none => pure false
  modify fun s ↦
    let new := (come.map (·.1)).filter fun n ↦ !s.noticed.contains n
    { s with noticed := (s.noticed ++ new).mergeSort }

def carryOut (text : RunsText) (action : String) : Work Unit := do
  let s ← get
  let status := s.statusBefore.getD s.status
  modify fun s ↦ { s with statusBefore := some status }
  let r ← attempt (text {} action)
  modify fun t ↦ { t with statusBefore := s.statusBefore }
  match r with
  | .ok _ => setStatus status
  | .error (.return_ (some code)) => throw (.return_ (some code))
  | .error (.exit code) => throw (.exit code)
  | .error .misuse => throw .misuse
  | .error l => do
    setStatus status
    throw l

def carryOutNoticed (text : RunsText) : Nat → Work Unit
  | 0 => pure ()
  | n + 1 => do
    match (← get).noticed with
    | [] => pure ()
    | signal :: rest => do
      modify fun s ↦ { s with noticed := rest }
      match (← get).traps.find? (·.1 == signal) with
      | some (_, action) => if !action.isEmpty then carryOut text action
      | none => pure ()
      carryOutNoticed text n

def heedSignals (text : RunsText) : Work Unit := do
  if !(← get).traps.isEmpty then
    takeNotices
    carryOutNoticed text 64

def lastWill (text : RunsText) (code : Int) : Work Int := do
  match (← get).traps.find? (·.1 == 0) with
  | none => pure code
  | some (_, action) => do
    modify fun s ↦ { s with
      traps := s.traps.filter (·.1 != 0), status := code, statusBefore := some code }
    match ← attempt (text {} action) with
    | .error (.exit code) => pure code
    | .error .misuse => return (← get).status
    | _ => pure code

end JobShell.Program.Sh
