import JobShell.Command.Basic
import JobShell.Failure
import JobShell.Status

namespace JobShell

/-- What starts pipelines. A foreground pipeline is waited for; one in the background is only
started, as the job whose number comes back. -/
structure Launcher (m : Type → Type) where
  foreground : Pipeline → m (Except Failure ExitStatus)
  background : Pipeline → m (Except Failure Nat)
  report : Failure → m Unit

namespace Sequencer

def admits (previous : Connector) (status : ExitStatus) : Bool :=
  match previous with
  | .and => status.isSuccess
  | .or => !status.isSuccess
  | _ => true

variable {m : Type → Type} [Monad m]

/-- Starts one pipeline. A pipeline that cannot be started counts as failed. -/
def launch (l : Launcher m) (p : Pipeline) : m ExitStatus := do
  if p.connector = .background then
    match ← l.background p with
    | .ok _ => pure .success
    | .error f => l.report f; pure .failure
  else
    match ← l.foreground p with
    | .ok status => pure status
    | .error f => l.report f; pure .failure

/-- Runs the pipelines after the connector `previous` and the status `status`. A pipeline that is
skipped leaves the status alone and hands its own connector on. -/
def runFrom (l : Launcher m) (previous : Connector) (status : ExitStatus) :
    List Pipeline → m ExitStatus
  | [] => pure status
  | p :: ps => do
    let status ← if admits previous status then launch l p else pure status
    runFrom l p.connector status ps

def run (l : Launcher m) (list : CommandList) : m ExitStatus :=
  runFrom l .sequential .success list.pipelines

end Sequencer

end JobShell
