import JobShell.Program.Sh.State

namespace JobShell.Program.Sh

def codeOf : WaitReport → Int
  | .exited code => code
  | .killed s _ => 128 + s.number
  | .killedRealTime number => 128 + number
  | .stopped s => 128 + s.number
  | _ => 0

/-- The words of the system for a death by a signal. -/
def deathText (s : Signal) : String :=
  match s with
  | .hup => "Hangup"
  | .int => "Interrupt"
  | .quit => "Quit"
  | .ill => "Illegal instruction"
  | .trap => "Trace/breakpoint trap"
  | .abrt => "Aborted"
  | .bus => "Bus error"
  | .fpe => "Floating point exception"
  | .kill => "Killed"
  | .usr1 => "User defined signal 1"
  | .segv => "Segmentation fault"
  | .usr2 => "User defined signal 2"
  | .pipe => "Broken pipe"
  | .alrm => "Alarm clock"
  | .term => "Terminated"
  | .stkflt => "Stack fault"
  | .xcpu => "CPU time limit exceeded"
  | .xfsz => "File size limit exceeded"
  | .vtalrm => "Virtual timer expired"
  | .prof => "Profiling timer expired"
  | .io => "I/O possible"
  | .pwr => "Power failure"
  | .sys => "Bad system call"
  | s => s.name

def leastRealTime : Nat := 34

def realTimeText (number : Nat) : String :=
  if number < leastRealTime then "Unknown signal " ++ Decimal.text number
  else "Real-time signal " ++ Decimal.text (number - leastRealTime)

namespace Job

def pid? (j : Job) : Option Int := j.children.getLast?.map (·.pid)

def code (j : Job) : Int := ((j.children.getLast?.bind (·.report)).map codeOf).getD 0

def isReusable (j : Job) : Bool := j.isDone && j.waited

end Job

def freeNumber (jobs : List Job) : Nat :=
  let isFree (n : Nat) : Bool := (jobs.find? (·.number == n)).all Job.isReusable
  ((List.range (jobs.length + 1)).find? fun n ↦ isFree (n + 1)).getD jobs.length + 1

def beginJob : Work Nat := do
  let s ← get
  let number := freeNumber s.jobs
  set { s with jobs := ⟨number, [], false, false⟩ :: s.jobs.filter (·.number != number) }
  pure number

def jobNumbered? (number : Nat) : Work (Option Job) :=
  return (← get).jobs.find? (·.number == number)

def changeJob (number : Nat) (f : Job → Job) : Work Unit :=
  modify fun s ↦ { s with jobs := s.jobs.map fun j ↦ if j.number == number then f j else j }

def dropJob (number : Nat) : Work Unit :=
  modify fun s ↦ { s with jobs := s.jobs.filter (·.number != number) }

def Job.note (j : Job) (pid : Int) (report : WaitReport) : Job :=
  let children := j.children.map fun (c : Child) ↦
    if c.pid = pid then { c with report := some report } else c
  let j := { j with children }
  { j with changed := j.changed || j.isDone }

inductive Waited
  | report
  | nothing
  | signal
  deriving DecidableEq

/-- Waits for any child. How a child of the job `watched` died is told, unless it was interrupted or its
pipe broke. -/
def waitOnce (flags : WaitFlags) (watched : Option Nat) : Work Waited := do
  match ← ask (.wait (-1) { flags with realTime := true }) with
  | .error e => pure (if e = .interrupted then .signal else .nothing)
  | .ok (_, .stillAlive) => pure .nothing
  | .ok (pid, report) => do
    let owner := (← get).jobs.find? fun j ↦ !j.isDone && j.children.any (·.pid == pid)
    match owner with
    | none => pure ()
    | some j => do
      changeJob j.number (·.note pid report)
      if watched = some j.number then
        match report with
        | .killed s _ => if s ≠ .int && s ≠ .pipe then sys (complain (deathText s))
        | .killedRealTime number => sys (complain (realTimeText number))
        | _ => pure ()
    pure .report

def takeReportsFor (watched : Option Nat) : Nat → Work Unit
  | 0 => sys Sys.hang
  | n + 1 => do
    if (← waitOnce { noHang := true } watched) = .report then takeReportsFor watched n

def takeReports : Work Unit := do
  if !(← get).jobs.isEmpty then takeReportsFor none Sys.patience

def awaitJobFor (interruptible : Bool) (number : Nat) : Nat → Work Bool
  | 0 => sys Sys.hang
  | n + 1 => do
    if (← jobNumbered? number).all Job.isDone then
      takeReportsFor (some number) Sys.patience
      pure true
    else
      match ← waitOnce { interruptible } (some number) with
      | .report => awaitJobFor interruptible number n
      | .nothing => pure true
      | .signal => do
        takeReportsFor (some number) Sys.patience
        pure false

def finishJob (number : Nat) : Work Int := do
  let _ ← awaitJobFor false number Sys.patience
  let code := ((← jobNumbered? number).map Job.code).getD 0
  dropJob number
  pure code

def awaitAny : Work Bool := do
  match ← waitOnce { interruptible := true } none with
  | .signal => do
    takeReportsFor none Sys.patience
    pure false
  | .report => do
    takeReportsFor none Sys.patience
    pure true
  | .nothing => pure true

def signalNumbered? (n : Nat) : Option Signal := Signal.ofNumber? n

def hasTraps (s : State) : Bool := s.traps.any fun t ↦ !t.2.isEmpty

def forgetParent : Work Unit := do
  (← get).traps.forM fun t ↦ do
    match signalNumbered? t.1 with
    | some s => if !t.2.isEmpty then
        let _ ← ask (.setDisposition s .default)
    | none => pure ()
  modify fun s ↦ { s with
    traps := s.traps.filter (·.2.isEmpty), noticed := [], jobs := [], isRoot := false }

def shield : Work Unit := do
  let _ ← ask (.setDisposition .int .ignore)
  let _ ← ask (.setDisposition .quit .ignore)
  modify fun s ↦ { s with settled := s.settled.filter fun x ↦ x != .int && x != .quit }

def detachInput : Work Unit := do
  let _ ← ask (.close Sys.stdin)
  let _ ← ask (.«open» "/dev/null" { readable := true } 0)

def codeAfter (r : Except Leave Unit) : Work Int := do
  match r with
  | .error (.exit code) | .error (.return_ (some code)) => pure code
  | _ => return (← get).status

def inChild (job : Nat) (lastWill : Int → Work Int) (work : Work Unit) : Work Unit := do
  match ← ask .fork with
  | .error _ => do
    dropJob job
    abort "Cannot fork"
  | .ok (.parent pid) => changeJob job fun j ↦ { j with children := j.children ++ [⟨pid, none⟩] }
  | .ok .child => do
    forgetParent
    let code ← lastWill (← codeAfter (← attempt work))
    sys (Sys.exit code)

/-- What a child writes into a pipe, up to the end, and its status. -/
def collectOutput (lastWill : Int → Work Int) (work : Work Unit) : Work (ByteArray × Int) := do
  match ← ask .pipe with
  | .error _ => abort "Pipe call failed"
  | .ok (out, into) => do
    let job ← beginJob
    inChild job lastWill do
      let _ ← ask (.close out)
      if into ≠ Sys.stdout then
        let _ ← ask (.duplicate into Sys.stdout)
        let _ ← ask (.close into)
      work
    let _ ← ask (.close into)
    let output := match ← sys (Sys.readAll out) with
      | .ok bytes => bytes
      | .error _ => ByteArray.empty
    let _ ← ask (.close out)
    return (output, ← finishJob job)

end JobShell.Program.Sh
