import JobShell.Command.Basic
import JobShell.Job.Process

namespace JobShell

abbrev JobId := Nat

inductive JobStatus
  | running
  | stopped
  | signaled (s : Signal)
  | done (code : Int)
  deriving DecidableEq, Repr

namespace JobStatus

def isCompleted : JobStatus → Bool
  | signaled _ | done _ => true
  | running | stopped => false

def pieces : JobStatus → List String
  | running => ["Running"]
  | stopped => ["Stopped"]
  | done code => if code = 0 then ["Done"] else ["Exit ", Decimal.text code]
  | signaled s => [s.description]

def text (s : JobStatus) : String := String.join s.pieces

end JobStatus

/-- A job. `notified` says that its present state has been shown, `foreground` that it last ran in
the foreground. -/
structure Job where
  id : JobId
  group : Option Int
  name : String
  processes : List Process
  notified : Bool := false
  foreground : Bool
  deriving DecidableEq, Repr

namespace Job

def start (id : JobId) (group : Option Int) (name : String) (connector : Connector)
    (processes : List Process) : Job :=
  { id, group, name, processes, foreground := decide (connector ≠ .background) }

def lastPid? (j : Job) : Option Int := j.processes.getLast?.map (·.pid)

def isCompleted (j : Job) : Bool := j.processes.all (·.isCompleted)

def isStopped (j : Job) : Bool :=
  j.processes.any (·.isStopped) && j.processes.all fun p ↦ p.isCompleted || p.isStopped

def status (j : Job) : JobStatus :=
  if j.isCompleted then
    match j.processes.getLast?.map Process.status with
    | some (.signaled s) => .signaled s
    | some (.exited code) => .done code
    | _ => .done 0
  else if j.isStopped then .stopped
  else .running

def exitStatus (j : Job) : ExitStatus :=
  (j.processes.getLast?.bind (·.exitStatus?)).getD .success

def markRunning (j : Job) : Job :=
  { j with
    processes := j.processes.map fun p ↦ if p.isStopped then { p with status := .running } else p
    notified := false }

def pieces (j : Job) : List String :=
  "[" :: Decimal.text j.id :: "] " :: j.status.pieces ++ ["\t", j.name]

def text (j : Job) : String := String.join j.pieces

/-- Asks for changes of every process that has not completed, in order, up to the first failure.
Tells whether any process changed. -/
def pollAll : List Process → Sys (Except Failure Bool × List Process)
  | [] => pure (.ok false, [])
  | p :: ps =>
    if p.isCompleted then do
      let (r, ps) ← pollAll ps
      pure (r, p :: ps)
    else do
      match ← p.poll Sys.patience with
      | (.error f, p) => pure (.error f, p :: ps)
      | (.ok changed, p) =>
        let (r, ps) ← pollAll ps
        pure (r.map (changed || ·), p :: ps)

def poll (j : Job) : Sys (Except Failure Bool × Job) := do
  let (r, ps) ← pollAll j.processes
  pure (r, { j with processes := ps })

end Job

end JobShell
