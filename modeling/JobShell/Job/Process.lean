import JobShell.Failure
import JobShell.Status
import JobShell.Sys.Basic

namespace JobShell

inductive ProcessStatus
  | running
  | stopped (s : Signal)
  | exited (code : Int)
  | signaled (s : Signal)
  deriving DecidableEq, Repr

/-- One forked stage of a job. -/
structure Process where
  pid : Int
  text : String
  status : ProcessStatus := .running
  deriving DecidableEq, Repr

namespace Process

def isCompleted (p : Process) : Bool :=
  match p.status with
  | .exited _ | .signaled _ => true
  | _ => false

def isStopped (p : Process) : Bool :=
  match p.status with
  | .stopped _ => true
  | _ => false

def exitStatus? (p : Process) : Option ExitStatus :=
  match p.status with
  | .running => none
  | .exited code => some (.ofCode code)
  | .stopped s | .signaled s => some (.ofSignal s)

def statusOf? : WaitReport → Option ProcessStatus
  | .exited code => some (.exited code)
  | .killed s _ => some (.signaled s)
  | .stopped s => some (.stopped s)
  | .continued => some .running
  | .killedRealTime _ | .traceEvent _ | .traceCall | .stillAlive => none

def update (p : Process) (report : WaitReport) : Process × Bool :=
  match statusOf? report with
  | some status => ({ p with status := status }, decide (status ≠ p.status))
  | none => (p, false)

def «exists» (p : Process) : Sys Bool := do
  match ← Sys.ask (.kill p.pid none) with
  | .error e => pure (decide (e ≠ .noProcess))
  | .ok _ => pure true

def markLost (p : Process) : Sys Process := do
  Sys.ask (.log .warn "psh::core::job"
    (Decimal.text p.pid ++ " was reaped elsewhere, assuming it exited"))
  pure { p with status := .exited 0 }

/-- Whether waiting for the process is over: it has completed, or it has stopped and `untraced` asks
for no more. -/
def settled (untraced : Bool) (p : Process) : Bool :=
  p.isCompleted || (untraced && p.isStopped)

/-- Waits until the process has settled, asking at most so many times. -/
def awaitFor (untraced : Bool) : Nat → Process → Sys (Except Failure Unit × Process)
  | 0, _ => Sys.hang
  | n + 1, p =>
    if p.settled untraced then pure (.ok (), p)
    else do
      match ← Sys.ask (.wait p.pid { untraced := untraced }) with
      | .ok (_, report) => awaitFor untraced n (p.update report).1
      | .error e =>
        if e = .interrupted then awaitFor untraced n p
        else if e = .noChild then
          let p ← p.markLost
          awaitFor untraced n p
        else pure (.error (.system e), p)

/-- Waits for each process in turn, and stops at the first failure. -/
def awaitAll (untraced : Bool) : List Process → Sys (Except Failure Unit × List Process)
  | [] => pure (.ok (), [])
  | p :: ps => do
    match ← p.awaitFor untraced Sys.patience with
    | (.error f, p) => pure (.error f, p :: ps)
    | (.ok _, p) =>
      let (r, ps) ← awaitAll untraced ps
      pure (r, p :: ps)

/-- Asks once for a change of the process, without blocking; an interrupted question is repeated.
Tells whether the process changed. -/
def poll : Nat → Process → Sys (Except Failure Bool × Process)
  | 0, _ => Sys.hang
  | n + 1, p => do
    match ← Sys.ask (.wait p.pid { noHang := true, untraced := true, continued := true }) with
    | .ok (_, report) =>
      let (p, changed) := p.update report
      pure (.ok changed, p)
    | .error e =>
      if e = .interrupted then poll n p
      else if e = .noChild then
        if ← p.exists then pure (.ok false, p)
        else
          let p ← p.markLost
          pure (.ok true, p)
      else pure (.error (.system e), p)

end Process

end JobShell
