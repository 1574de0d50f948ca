import JobShell.Failure
import JobShell.History
import JobShell.Job.Table
import JobShell.Sys.LineBuffer

namespace JobShell

/-- What kind of shell it is. -/
structure ShellConfig where
  keepsHistory : Bool := false
  historyCapacity : Nat := 0
  jobControl : Bool := false
  displaysMessages : Bool := false
  hangsUpOnExit : Bool := false
  deriving DecidableEq, Repr

namespace ShellConfig

def interactive (historyCapacity : Nat) : ShellConfig :=
  ⟨true, historyCapacity, true, true, true⟩

def script : ShellConfig := {}

end ShellConfig

/-- A shell. It is interactive if it controls the jobs of a terminal; a subshell is the copy in a
forked child, which has the jobs of its parent in its table but not as children. `output` holds what is
still to be written to standard output, `captured` what builtins have said since it is to be caught.
`tellsOfDefects` says whether a defect is told of where it arises. -/
structure Shell where
  history : History
  historyFile : Option String := none
  jobs : JobTable := {}
  lastStatus : ExitStatus := .success
  config : ShellConfig
  isInteractive : Bool
  isSubshell : Bool := false
  warnedOfStoppedJobs : Bool := false
  output : LineBuffer := {}
  captured : Option String := none
  tellsOfDefects : Bool := false

namespace Shell

abbrev Act := ExceptT Defect (StateT Shell Sys)

abbrev Try := ExceptT Failure Act

def system {α : Type} (x : Sys α) : Act α := ExceptT.lift (StateT.lift x)

def ask (c : Call) : Act (Reply c) := system (Sys.ask c)

def leave {α : Type} (code : Int) : Act α := system (Sys.exit code)

def ensuring {α : Type} (x : Act α) (after : Act Unit) : Act α := do
  let r ← (ExceptT.mk (Except.ok <$> x.run) : Act (Except Defect α))
  after
  ExceptT.mk (pure r)

def log (level : LogLevel) (target text : String) : Act Unit := ask (.log level target text)

def doing {α : Type} (x : Act α) : Try α := ExceptT.lift x

def attempt {α : Type} (x : Act (Except Failure α)) : Try α := ExceptT.mk x

def logFailure (target what : String) (r : Except Failure Unit) : Act Unit :=
  match r with
  | .ok _ => pure ()
  | .error f => log .error target (what ++ ": " ++ f.message)

def brokenCode : Int := 101

def giveUp {α : Type} (d : Defect) : Act α := do
  if (← get).tellsOfDefects then
    let _ ← system (Sys.writeAll Sys.stderr ("thread 'main' panicked at " ++ d.message ++ "\n").toUTF8)
  throw d

/-- Writes to standard error. A shell that cannot complain gives up; a closed standard error takes
everything. -/
def complain (text : String) : Act Unit := do
  match (← system (Sys.writeAll Sys.stderr text.toUTF8)).1 with
  | .ok _ => pure ()
  | .error e =>
    if e = .badDescriptor then pure () else giveUp (.unprintable "stderr" (.system e))

def report (f : Failure) : Act Unit := complain f.report

def wrote (r : Except Errno Unit × LineBuffer) : Act (Except StreamFault Unit) := do
  modify fun s ↦ { s with output := r.2 }
  pure (r.1.mapError .system)

def flush : Act (Except StreamFault Unit) := do
  wrote (← system ((← get).output.flush Sys.stdout))

def print (pieces : List String) : Act (Except StreamFault Unit) := do
  wrote (← system ((← get).output.writeEach Sys.stdout pieces))

def say (pieces : List String) : Act (Except StreamFault Unit) := do
  match (← get).captured with
  | none => print pieces
  | some said => do
    modify fun s ↦ { s with captured := some (said ++ String.join pieces) }
    pure (.ok ())

def streamFailure {α : Type} : Except StreamFault α → Except Failure α
  | .ok a => .ok a
  | .error f => .error (.stream f)

def setJobs (jobs : JobTable) : Act Unit := modify fun s ↦ { s with jobs }

def modifyJob (id : JobId) (f : Job → Job) : Act Unit :=
  modify fun s ↦ { s with jobs := s.jobs.modify id f }

end Shell

end JobShell
