import JobShell.Shell.State

namespace JobShell.Shell

def terminalSignals : List Signal := [.int, .quit, .tstp, .ttin, .ttou]

def systemTry (r : Except Errno Unit) : Except Failure Unit :=
  match r with
  | .ok _ => .ok ()
  | .error e => .error (.system e)

/-- Waits until the group of the shell owns the terminal. -/
def awaitTerminal : Nat → Sys (Except Failure Unit)
  | 0 => Sys.hang
  | n + 1 => do
    let group ← Sys.ask .ownGroup
    match ← Sys.ask (.terminalGroup Sys.stdin) with
    | .error e => pure (.error (.system e))
    | .ok owner =>
      if owner = group then pure (.ok ())
      else
        match ← Sys.ask (.kill (-group) (some .ttin)) with
        | .error e => pure (.error (.system e))
        | .ok _ => awaitTerminal n

def ignoreAll : List Signal → Sys (Except Failure Unit)
  | [] => pure (.ok ())
  | s :: ss => do
    match ← Sys.ask (.setDisposition s .ignore) with
    | .error e => pure (.error (.system e))
    | .ok _ => ignoreAll ss

/-- Makes the shell the owner of its terminal, in a group of its own. -/
def takeTerminal : Try Unit := do
  attempt (system (awaitTerminal Sys.patience))
  attempt (system (ignoreAll terminalSignals))
  let pid ← doing (ask .ownPid)
  if (← doing (ask .ownGroup)) ≠ pid then
    attempt (systemTry <$> ask (.setGroup pid pid))
  doing do
    let r ← ask (.setTerminalGroup Sys.stdin pid)
    logFailure "psh::shell::job_control" "failed to grab control of terminal" (systemTry r)

def watchChildren : Try Unit :=
  attempt (systemTry <$> ask (.setDisposition .chld .notice))

def resetSignals : Act Unit :=
  (Signal.chld :: terminalSignals).forM fun s ↦ do
    let _ ← ask (.setDisposition s .default)

/-- Lends the terminal to a group, if there is one, while some work is done. -/
def withTerminal {α : Type} (group : Option Int) (x : Act α) : Act α :=
  match group with
  | none => x
  | some g => do
    let own ← ask .ownGroup
    let given ← ask (.setTerminalGroup Sys.stdin g)
    logFailure "psh::shell::job_control" ("failed to give terminal to " ++ Decimal.text g)
      (systemTry given)
    ensuring x do
      let taken ← ask (.setTerminalGroup Sys.stdin own)
      logFailure "psh::shell::job_control" "failed to take back the terminal" (systemTry taken)

def reapTable : Act (Except Failure (List (JobId × JobStatus))) := do
  let (r, jobs) ← system (← get).jobs.reap
  setJobs jobs
  pure r

/-- Collects the changes of jobs if a child has given notice of any. A subshell has no children to
hear of. -/
def reapJobs : Act Unit := do
  if (← get).isSubshell then pure ()
  else if ← ask (.takeNotice .chld) then
    match ← reapTable with
    | .ok _ => pure ()
    | .error f => log .error "psh::shell" ("failed to reap jobs: " ++ f.message)

def notifyJobs : Act Unit := do
  reapJobs
  let (r, jobs) ← (← get).jobs.notify print
  setJobs jobs
  logFailure "psh::shell" "do_job_notification" (streamFailure r)

def signalJob (id : JobId) (s : Signal) : Try Unit :=
  attempt do system ((← get).jobs.signal id s)

def jobOf (id : JobId) : Try Job := do
  match (← doing get).jobs.get? id with
  | some j => pure j
  | none => throw (.noSuchJob (JobTable.jobName id))

def waitForJob (id : JobId) (untraced : Bool) : Try Unit := do
  let j ← jobOf id
  attempt do
    let (r, ps) ← system (Process.awaitAll untraced j.processes)
    modifyJob id fun j ↦ { j with processes := ps }
    pure r

def resumeJob (id : JobId) (live jobControl : Bool) : Try Unit := do
  if live then signalJob id .cont
  waitForJob id jobControl

/-- Continues a job in the foreground and waits for it to complete or stop. Gives its status. -/
def putInForeground (id : JobId) : Try ExitStatus := do
  let jobControl := (← doing get).isInteractive
  let _ ← jobOf id
  doing (modifyJob id fun j ↦ { j with foreground := true }.markRunning)
  let j ← jobOf id
  let group := if jobControl then j.group else none
  attempt (withTerminal group (resumeJob id (!j.isCompleted) jobControl).run)
  let j ← jobOf id
  doing <| modify fun s ↦
    { s with jobs := if j.isCompleted then (s.jobs.remove id).2 else s.jobs.setCurrent id }
  pure j.exitStatus

def putInBackground (id : JobId) : Try Unit := do
  let _ ← jobOf id
  doing (modifyJob id fun j ↦ { j with foreground := false }.markRunning)
  signalJob id .cont
  doing (modify fun s ↦ { s with jobs := s.jobs.setCurrent id })

end JobShell.Shell
