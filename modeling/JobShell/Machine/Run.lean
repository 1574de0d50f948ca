import JobShell.Machine.Kernel

namespace JobShell.Machine

variable {α : Type}

inductive Turn (α : Type) where
  | moved (m : Machine α)
  | waits (m : Machine α)

def setBody (m : Machine α) (pid : Int) (body : Sys α) : Machine α :=
  m.modify pid fun t ↦ { t with body }

def fork (m : Machine α) (t : Task α) (next : Except Errno Forked → Sys α) : Machine α :=
  let pid := m.nextPid
  let child := { t with
    pid, parent := t.pid, body := next (.ok .child), pending := [], news := none, executed := false }
  let m := m.setBody t.pid (next (.ok (.parent pid)))
  { m with tasks := m.tasks ++ [child], nextPid := pid + 1 }

def step (m : Machine α) (t : Task α) : Turn α :=
  match t.body with
  | .done _ => .moved (m.die t.pid (.exited 0))
  | .call .fork next => .moved (m.fork t next)
  | .call c next =>
    match m.answer t c with
    | .reply r m => .moved (m.setBody t.pid (next r))
    | .wait m => .waits m
    | .over m => .moved m

inductive Result (α : Type) where
  | value (a : α)
  | ended (report : WaitReport)
  | stuck

def result? (m : Machine α) : Option (Result α) :=
  match m.task? m.main with
  | none => some .stuck
  | some t =>
    match t.ended, t.body with
    | some report, _ => some (.ended report)
    | none, .done a => some (.value a)
    | none, _ => none

def sweep (m : Machine α) : List Int := (m.tasks.filter Task.isLive).map Task.pid

def wakeTime? (m : Machine α) : Option Nat :=
  (m.tasks.filterMap fun t ↦ if t.isLive && !t.stopped then t.deadline else none).min?

/-- Runs for at most so many calls. `ahead` are the tasks that are still to be looked at in this sweep,
`moved` tells whether any task has gone on in it. -/
def runFor (m : Machine α) : Nat → List Int → Bool → Result α × Machine α
  | 0, _, _ => (.stuck, m)
  | n + 1, ahead, moved =>
    match m.result? with
    | some r => (r, m)
    | none =>
      match ahead with
      | [] =>
        if moved then runFor m n m.sweep false
        else
          match m.wakeTime? with
          | some time => runFor { m with clock := max m.clock time } n m.sweep false
          | none => (.stuck, m)
      | pid :: later =>
        match m.task? pid with
        | none => runFor m n later moved
        | some t =>
          if !t.isLive || t.stopped then runFor m n later moved
          else
            match m.step t with
            | .moved m => runFor m n ahead true
            | .waits m => runFor m n later moved

def run (m : Machine α) : Result α × Machine α :=
  m.runFor Sys.patience m.sweep false

def load (m : Machine α) (body : Sys α) : Machine α := m.setBody m.main body

end JobShell.Machine
