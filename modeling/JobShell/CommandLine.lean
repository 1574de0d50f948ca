import JobShell.Options
import JobShell.Shell.Script

namespace JobShell.CommandLine

/-- What the shell is started for. `nothing` is a command string that was announced and not given. -/
inductive Request
  | help
  | version
  | command (text : String)
  | file (path : String)
  | input
  | nothing
  deriving DecidableEq, Repr

/-- A request, and where and how much is logged. -/
structure Invocation where
  request : Request
  logPath : Option String := none
  logLevel : String
  deriving DecidableEq, Repr

def flags : List Flag :=
  [⟨["-h", "--help"], false⟩, ⟨["--version"], false⟩, ⟨["-c"], false⟩, ⟨["--log"], true⟩,
    ⟨["--log-level"], true⟩]

def usage : String :=
  "Usage:\n    psh [options]\n    psh [options] -c <command>\n    psh [options] <file>\n" ++
  "    psh (-h | --help)\n    psh --version"

def help : String :=
  "psh.\n\n" ++ usage ++ "\n\nOptions:\n" ++
  "    -h --help            Show this screen.\n" ++
  "    --version            Show version.\n" ++
  "    -c                   If the -c option is present, then commands are read from the first\n" ++
  "                             non-option argument command_string.\n" ++
  "    --log=<path>         File to write log to, defaults to ~/.psh_log\n" ++
  "    --log-level=<level>  One of off, error, warn, info, debug or trace [default: info]."

def version : String := "psh version 0.1.0"

def defaultLevel : String := "info"

def requestOf (r : Options.Read) : Request :=
  if r.has "--help" then .help
  else if r.has "--version" then .version
  else
    match r.words with
    | word :: _ => if r.has "-c" then .command word else .file word
    | [] => if r.has "-c" then .nothing else .input

def Invocation.read (words : List String) : Except Options.Problem Invocation := do
  let r ← Options.read flags words
  if r.repeats || r.words.length > 1 then throw .noMatch
  pure ⟨requestOf r, r.value? "--log", (r.value? "--log-level").getD defaultLevel⟩

def levels : List (String × LogLevel) :=
  [("off", .off), ("error", .error), ("warn", .warn), ("info", .info), ("debug", .debug),
    ("trace", .trace)]

def levelNamed? (name : String) : Option LogLevel :=
  (levels.find? fun l ↦ l.1 == name.toLower).map (·.2)

def logName : String := ".psh_log"

open Shell

def warn (text : String) : Act Unit := complain ("psh: warning: " ++ text ++ "\n")

/-- Opens the log. Without one the shell runs all the same. -/
def startLog (i : Invocation) : Act Unit := do
  let home := (← ask .environment).ownHome
  let path := (i.logPath.map Text.spell).getD (pathIn home logName)
  let level ← match levelNamed? i.logLevel with
    | some level => pure level
    | none => do
      warn ("unknown log level \x60" ++ i.logLevel ++ "', using info")
      pure .info
  match ← ask (.openLog path level) with
  | .ok _ => pure ()
  | .error e => warn ("unable to log to " ++ Text.unspell path ++ ": " ++ (StreamFault.system e).message)

def printLine (text : String) : Act Unit := do
  match ← print [text, "\n"] with
  | .ok _ => pure ()
  | .error f => giveUp (.unprintable "stdout" f)

def ready (config : ShellConfig) : Act Unit := do
  match ← (Shell.bringUp config).run with
  | .ok _ => pure ()
  | .error f => do
    log .error "psh" ("failed to create shell: " ++ f.message)
    report f
    leave 1

def missingCode : Int := 127

def scriptFailure (path : String) (f : Failure) : Failure :=
  if f = .stream (.system .noEntry) then
    .builtin (path ++ ": No such file or directory") missingCode
  else f

def exitCodeOf : Failure → Int
  | .builtin _ code => code
  | _ => 1

def finish {α : Type} (r : Except Failure Unit) : Act α := do
  match r with
  | .ok _ => Shell.exit none
  | .error f => do
    log .error "psh" f.message
    report f
    Shell.exit (some (.ofCode (exitCodeOf f)))

def historyCapacity : Nat := 1000

def runInput {α : Type} : Act α := do
  let isTerminal ← ask (.isTerminal Sys.stdin)
  ready (if isTerminal then .interactive historyCapacity else .script)
  runStdin
  Shell.exit none

def runRequest {α : Type} : Request → Act α
  | .help => do
    printLine help
    leave 0
  | .version => do
    printLine version
    leave 0
  | .command text => do
    ready .script
    finish (← runText text)
  | .file path => do
    ready .script
    let r ← runFile path
    finish (match r with
      | .ok _ => .ok ()
      | .error f => .error (scriptFailure path f))
  | .nothing => do
    ready .script
    giveUp .noCommandString
  | .input => runInput

def run {α : Type} (words : List String) : Act α :=
  match Invocation.read words with
  | .error p => do
    complain (Options.complaint p usage ++ "\n")
    leave 1
  | .ok i => do
    if i.request ≠ .help then startLog i
    runRequest i.request

def program (words : List String) : Sys Int := do
  let (r, s) ← (run words).run.run { Shell.make .script false with tellsOfDefects := true }
  let _ ← s.output.flush Sys.stdout
  Sys.exit (match r with
    | .ok code => code
    | .error _ => brokenCode)

end JobShell.CommandLine
