import JobShell.Shell.JobControl
import JobShell.Text.Bytes

namespace JobShell.Shell

def historyName : String := ".psh_history"

def defaultPath : String := "/usr/local/bin:/usr/bin:/bin"

def pathIn (directory name : String) : String :=
  if directory.isEmpty || directory.endsWith "/" then directory ++ name
  else directory ++ "/" ++ name

def editorFailure (e : Errno) : Failure := .editor (.system e)

/-- The bytes of the history file; none if there is no such file. -/
def readHistory (path : String) : Sys (Except Failure (Option ByteArray)) := do
  match ← Sys.ask (.«open» path { readable := true, closeOnExec := true } 0) with
  | .error e => pure (if e = .noEntry then .ok none else .error (editorFailure e))
  | .ok fd => do
    let r ← Sys.readAll fd
    Sys.drop fd
    pure (match r with
      | .ok bytes => .ok (some bytes)
      | .error e => .error (editorFailure e))

/-- Adds the entries of the history file to the history. -/
def loadHistory : Try Unit := do
  let path := pathIn (← doing (ask .environment)).ownHome historyName
  doing (modify fun s ↦ { s with historyFile := some path })
  match ← attempt (system (readHistory path)) with
  | none => pure ()
  | some bytes =>
    let loaded := (← doing get).history.load bytes.toList
    doing (modify fun s ↦ { s with history := loaded.history })
    doing (loaded.suspicious.forM fun line ↦ log .warn "rustyline" ("bad escaped line: " ++ line))
    match loaded.fault with
    | some f => throw (.editor f)
    | none => pure ()

/-- Writes the history file, which only its owner may read. -/
def writeHistory (path text : String) : Sys (Except Failure Unit) := do
  let mask ← Sys.ask (.setMask 0o077)
  let made ← Sys.ask (.«open» path
    { writable := true, create := true, truncate := true, closeOnExec := true } 0o666)
  let _ ← Sys.ask (.setMask mask)
  match made with
  | .error e => pure (.error (editorFailure e))
  | .ok fd => do
    let _ ← Sys.ask (.setMode fd 0o600)
    let (r, _) ← Sys.writeAll fd text.toUTF8
    Sys.drop fd
    pure (match r with
      | .ok _ => .ok ()
      | .error e => .error (editorFailure e))

/-- Saves the history if it has new entries. -/
def saveHistory (path : String) : Act (Except Failure Unit) := do
  match (← get).history.save? with
  | none => pure (.ok ())
  | some text => do
    let r ← system (writeHistory path text)
    if r.isOk then modify fun s ↦ { s with history := s.history.saved }
    pure r

def seedVariable (name value : String) : Act Unit := do
  if (← ask .environment).changes name false then ask (.setVariable name value)

def seedVariables : Act Unit := do
  match ← ask .workingDirectory with
  | .ok directory => seedVariable "PWD" (Text.spell (Text.unspell directory))
  | .error e =>
    log .warn "psh::shell" ("unable to get current directory: " ++ (StreamFault.system e).message)
  seedVariable "PATH" defaultPath

/-- Takes the terminal, or does without job control. -/
def startJobControl : Act Unit := do
  match ← takeTerminal.run with
  | .ok _ => pure ()
  | .error f => do
    log .error "psh::shell"
      ("failed to initialize shell for job control despite isatty: " ++ f.message)
    modify fun s ↦ { s with isInteractive := false }

/-- Readies a shell. -/
def start : Try Unit := do
  let s ← doing get
  if s.isInteractive then doing startJobControl
  watchChildren
  if s.config.keepsHistory then loadHistory
  doing seedVariables
  doing (log .info "psh::shell" "psh started up")

def make (config : ShellConfig) (isTerminal : Bool) : Shell where
  history := ⟨config.historyCapacity, [], 0⟩
  config
  isInteractive := config.jobControl && isTerminal

def bringUp (config : ShellConfig) : Try Unit := do
  let isTerminal ← doing (ask (.isTerminal Sys.stdin))
  doing (modify fun s ↦ { make config isTerminal with tellsOfDefects := s.tellsOfDefects })
  start

/-- Tells whether the shell may exit. The first time that it is asked to while jobs are stopped, it
may not. -/
def confirmExit : Act Bool := do
  let s ← get
  if s.isInteractive && !s.warnedOfStoppedJobs && s.jobs.hasStopped then
    set { s with warnedOfStoppedJobs := true }
    pure false
  else pure true

/-- A code made into a byte; a negative one is counted from 256 down. What remains of a division has the sign of
what is divided. -/
def lowByte (code : Int) : Int := if code < 0 then (256 + code).tmod 256 else code.tmod 256

def exitCode (status : ExitStatus) : Int := lowByte (status.code?.getD 0)

/-- Hangs up the jobs, saves the history and leaves the shell. -/
def shutDown {α : Type} (status : Option ExitStatus) : Act α := do
  let s ← get
  if s.config.hangsUpOnExit then system s.jobs.hangUpAll
  if s.config.keepsHistory then
    match s.historyFile with
    | none => pure ()
    | some path =>
      match ← saveHistory path with
      | .ok _ => pure ()
      | .error f =>
        log .error "psh::shell" ("error: failed to save history to file during shutdown: " ++ f.message)
  log .info "psh::shell" "psh has shut down"
  let _ ← flush
  leave (exitCode (status.getD s.lastStatus))

def exit {α : Type} (status : Option ExitStatus) : Act α := do
  if (← get).config.displaysMessages then
    match ← print ["exit\n"] with
    | .ok _ => pure ()
    | .error f => giveUp (.unprintable "stdout" f)
  shutDown status

def enterSubshell : Act Unit :=
  modify fun s ↦ { s with isInteractive := false, isSubshell := true, config := .script }

end JobShell.Shell
