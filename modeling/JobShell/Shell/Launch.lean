import JobShell.Command.Basic
import JobShell.Sequencer
import JobShell.Shell.Builtin
import JobShell.Shell.Redirect
import JobShell.Sys.Execute

namespace JobShell.Shell

def notFoundCode : Int := 127

def notExecutableCode : Int := 126

/-- Where a stage stands: the group it joins, if it is not the first, the pipe ends it reads from and
writes to, and whether its job owns the terminal. -/
structure Stage where
  group : Option Int
  input : Option Int
  output : Option Int
  jobControl : Bool
  foreground : Bool

/-- Puts a child into its group, and its group into the foreground. -/
def joinGroup (s : Stage) : Sys Unit := do
  if s.jobControl then
    let pid ← Sys.ask .ownPid
    let group := s.group.getD pid
    let _ ← Sys.ask (.setGroup pid group)
    if s.foreground then
      let _ ← Sys.ask (.setTerminalGroup Sys.stdin group)

/-- Moves a pipe end to the standard stream it stands for. -/
def attach (fd : Option Int) (stream : Int) : Sys Unit :=
  match fd with
  | none => pure ()
  | some fd => do
    match ← Sys.ask (.duplicate fd stream) with
    | .ok _ => Sys.drop fd
    | .error _ => Sys.exit 1

/-- Executes a command. Comes back only with a failure. -/
def executeCommand (c : Command) : Sys Failure := do
  match c.words.find? Environment.hasNul with
  | some word => pure (.nulByte word)
  | none => do
    let environment ← Sys.ask .environment
    let e ← Sys.execute (Text.spell c.program) (c.words.map Text.spell) environment
    pure (if e = .noEntry && !c.program.toList.contains '/' then .commandNotFound c.program
      else .notExecutable c.program e.description)

def failureCode : Failure → Int
  | .commandNotFound _ => notFoundCode
  | _ => notExecutableCode

def takePlace (s : Stage) : Act Unit := do
  system (joinGroup s)
  resetSignals
  enterSubshell
  system (attach s.input Sys.stdin)
  system (attach s.output Sys.stdout)

/-- What a child does where it stands: it never comes back. -/
def carryOut {α : Type} (c : Command) (p : Redirect.Prepared) : Act α := do
  match ← system (Redirect.apply p) with
  | .error f => do
    report f
    leave 1
  | .ok _ =>
    match Builtin.ofName? c.program with
    | some b => do
      let status ← runBuiltin b c.arguments
      let _ ← flush
      leave (status.code?.getD 1)
    | none => do
      let f ← system (executeCommand c)
      report f
      leave (failureCode f)

def runChild {α : Type} (c : Command) (s : Stage) (p : Redirect.Prepared) : Act α :=
  tryCatch (do takePlace s; carryOut c p) fun _ ↦ do
    let _ ← flush
    leave brokenCode

/-- The processes of a pipeline as far as they have been forked, and the group they form. -/
structure Spawned where
  group : Option Int := none
  processes : List Process := []

def flushBeforeFork : Act Unit := do
  logFailure "psh::shell::execute_command" "failed to flush stdout" (streamFailure (← flush))

/-- Forks one stage. Comes back in the shell only. -/
def forkStage (c : Command) (s : Stage) (p : Redirect.Prepared) (next : Option Int) :
    Act (Except Failure Int) := do
  match ← ask .fork with
  | .error e => pure (.error (.forkFailed e))
  | .ok (.parent pid) => pure (.ok pid)
  | .ok .child => do
    system (next.forM Sys.drop)
    runChild c s p

/-- Takes a forked stage into the books. -/
def enroll (spawned : Spawned) (c : Command) (jobControl : Bool) (pid : Int) : Act Spawned := do
  let group := spawned.group.getD pid
  if jobControl then
    let r ← ask (.setGroup pid group)
    logFailure "psh::shell::execute_command"
      ("failed to set pgid (" ++ Decimal.text group ++ ") for pid (" ++ Decimal.text pid ++ ")")
      (systemTry r)
  pure ⟨some group, spawned.processes ++ [⟨pid, c.text, .running⟩]⟩

def releaseAll (fds : List (Option Int)) : Sys Unit := fds.forM fun fd ↦ fd.forM Sys.drop

def pipeTo (rest : Pipeline) : Act (Except Failure (Option (Int × Int))) := do
  if rest.isEmpty then pure (.ok none)
  else
    match ← ask .pipe with
    | .ok ends => pure (.ok (some ends))
    | .error e => pure (.error (.system e))

/-- Starts the stages of a pipeline, the first of which reads from `input`. Gives those that were
started also when one cannot be. -/
def spawnStages (foreground jobControl : Bool) (spawned : Spawned) (input : Option Int) :
    Pipeline → Act (Except Failure Unit × Spawned)
  | [] => do
    system (releaseAll [input])
    pure (.ok (), spawned)
  | c :: rest => do
    match ← pipeTo rest with
    | .error f => do
      system (releaseAll [input])
      pure (.error f, spawned)
    | .ok ends => do
      let next := ends.map (·.1)
      let output := ends.map (·.2)
      match ← system (Redirect.prepare c.redirections) with
      | .error f => do
        system (releaseAll [output, next, input])
        pure (.error f, spawned)
      | .ok p => do
        flushBeforeFork
        match ← forkStage c ⟨spawned.group, input, output, jobControl, foreground⟩ p next with
        | .error f => do
          system (Redirect.release p)
          system (releaseAll [output, next, input])
          pure (.error f, spawned)
        | .ok pid => do
          let spawned ← enroll spawned c jobControl pid
          system (releaseAll [input])
          system (Redirect.release p)
          system (releaseAll [output])
          spawnStages foreground jobControl spawned next rest

/-- Starts a pipeline. If a stage cannot be started, those that were are waited for. -/
def spawnPipeline (p : Pipeline) (foreground : Bool) : Try Spawned := do
  let jobControl := (← doing get).isInteractive
  let (r, spawned) ← doing (spawnStages foreground jobControl {} none p)
  match r with
  | .ok _ => pure (if jobControl then spawned else { spawned with group := none })
  | .error f => do
    doing do
      let (waited, _) ← system (Process.awaitAll false spawned.processes)
      logFailure "psh::shell::execute_command" "failed to wait for partial pipeline" waited
    throw f

def putBack (saved : Redirect.Saved) : Act Unit := do
  logFailure "psh::shell::redirect" "failed to flush stdout" (streamFailure (← flush))
  system (Redirect.restore saved)

/-- Runs a builtin in the shell itself, under redirections. -/
def runInShell (b : Builtin) (c : Command) : Act (Except Failure ExitStatus) := do
  match ← system (Redirect.prepare c.redirections) with
  | .error f => pure (.error f)
  | .ok p => do
    let (r, saved) ← system (Redirect.save c.redirections)
    let work : Act (Except Failure ExitStatus) := do
      match r with
      | .error f => pure (.error f)
      | .ok _ => do
        match ← system (Redirect.apply p) with
        | .error f => report f; pure (.ok .failure)
        | .ok _ => Except.ok <$> runBuiltin b c.arguments
    ensuring work do
      putBack saved
      system (Redirect.release p)

/-- Waits for a pipeline that has just been started; it is a job from now on if it has stopped. -/
def followPipeline (p : Pipeline) (spawned : Spawned) : Act (Except Failure ExitStatus) := do
  let jobControl := (← get).isInteractive
  let (r, ps) ← withTerminal spawned.group
    (system (Process.awaitAll jobControl spawned.processes))
  match r with
  | .error f => pure (.error f)
  | .ok _ => do
    if ps.any (·.isStopped) then
      let (id, jobs) := (← get).jobs.register spawned.group p.text p.connector ps
      setJobs jobs
      log .info "psh::shell" ("job [" ++ Decimal.text id ++ "] stopped")
    pure (.ok ((ps.getLast?.bind (·.exitStatus?)).getD .success))

def launchForeground (p : Pipeline) : Act (Except Failure ExitStatus) :=
  let spawning : Act (Except Failure ExitStatus) := do
    match ← (spawnPipeline p true).run with
    | .error f => pure (.error f)
    | .ok spawned => followPipeline p spawned
  match p with
  | [c] =>
    match Builtin.ofName? c.program with
    | some b => runInShell b c
    | none => spawning
  | _ => spawning

/-- Starts a pipeline as a job. -/
def launchBackground (p : Pipeline) : Act (Except Failure JobId) := do
  match ← (spawnPipeline p false).run with
  | .error f => pure (.error f)
  | .ok spawned => do
    let (id, jobs) := (← get).jobs.register spawned.group p.text p.connector spawned.processes
    setJobs jobs
    if (← get).isInteractive then
      match spawned.processes.getLast? with
      | some q =>
        complain ("[" ++ Decimal.text id ++ "] " ++ Decimal.text q.pid ++ "\n")
      | none => pure ()
    pure (.ok id)

def launcher : Launcher Act where
  foreground := launchForeground
  background := launchBackground
  report f := do
    log .error "psh::shell::execute_command" ("failed to launch pipeline: " ++ f.message)
    report f

def execute (l : CommandList) : Act Unit := do
  let status ← Sequencer.run launcher l
  modify fun s ↦ { s with lastStatus := status }

end JobShell.Shell
