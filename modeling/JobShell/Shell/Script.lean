import JobShell.Script.Source
import JobShell.Shell.Launch
import JobShell.Text.Cluster

namespace JobShell.Shell

open JobShell.Parser (Answer Outcome Progress)

def malformedCode : Int := 2

def noteAnswer (w : Parser.Waiting) (a : Answer) : Act Unit :=
  match w.reason, a with
  | .document r _ _, .endOfInput =>
    log .warn "psh::core::parser"
      ("here-document delimited by end-of-file (wanted \x60" ++ r.delimiter ++ "')")
  | _, _ => pure ()

/-- Parses on, asking for lines as long as the parser waits for one. Also gives the line with all that
was read for it. -/
def parseOn {σ : Type} (read : σ → Act (Answer × σ)) (homes : HomeDirs) :
    Nat → Progress → String → σ → Act (Except Parser.Fault (Option CommandList) × String × σ)
  | 0, _, _, _ => system Sys.hang
  | n + 1, p, line, s =>
    match p with
    | .finished (.ok cs) => pure (Outcome.ofCommands cs, line, s)
    | .finished (.error f) => pure (.error f, line, s)
    | .waiting w => do
      let (a, s) ← read s
      noteAnswer w a
      parseOn read homes n (w.resume homes a) (line ++ a.addition) s

def parseCommand {σ : Type} (read : σ → Act (Answer × σ)) (line : String) (s : σ) :
    Act (Except Parser.Fault (Option CommandList) × String × σ) := do
  let homes := (← ask .environment).unspelled.homes
  parseOn read homes Sys.patience (Parser.begin homes line) line s

def reportMalformed (f : Failure) : Act Unit := do
  report f
  modify fun s ↦ { s with lastStatus := .ofCode malformedCode }

/-- Runs the commands of a source, at most so many. -/
def runLines : Nat → Script.Source → Act (Except Failure Unit)
  | 0, _ => system Sys.hang
  | n + 1, source => do
    match ← system source.next with
    | (none, _) => pure (.ok ())
    | (some (.error f), _) => pure (.error (.stream f))
    | (some (.ok line), source) => do
      reapJobs
      modify fun s ↦ { s with jobs := s.jobs.discardCompleted }
      let (parsed, _, source) ← parseCommand (fun s ↦ system s.answer) line source
      match parsed with
      | .ok (some l) => execute l; runLines n source
      | .ok none => runLines n source
      | .error (.defect d) => giveUp d
      | .error (.failure f) =>
        if f.isMalformed then reportMalformed f; pure (.ok ()) else pure (.error f)

def runSource (source : Script.Source) : Act (Except Failure Unit) := runLines Sys.patience source

def runText (text : String) : Act (Except Failure Unit) := runSource (.ofText text)

def openScript (path : String) : Sys (Except Failure Int) := do
  if Environment.hasNul path then pure (.error (.stream .nulInPath))
  else
    match ← Sys.ask (.«open» (Text.spell path) { readable := true, closeOnExec := true } 0) with
    | .ok fd => pure (.ok fd)
    | .error e => pure (.error (.stream (.system e)))

def runFile (path : String) : Act (Except Failure Unit) := do
  match ← system (openScript path) with
  | .error f => pure (.error f)
  | .ok fd => ensuring (runSource (.ofFile fd)) (system (Sys.drop fd))

/-- What has been typed but not used yet: a line may hold newlines, and what follows the first of them
is the next line. -/
abbrev Typed := List UInt8

def readTyped (ahead : Typed) : Sys (Except StreamFault (Option String) × Typed) := do
  let (r, ahead) ←
    Script.Source.readPiece (Sys.stdin, Script.Source.fileCapacity) Sys.patience [] ahead
  match r with
  | .error e => pure (if e = .badDescriptor then .ok none else .error (.system e), ahead)
  | .ok piece => pure (if piece.isEmpty then .ok none else (Script.lineOf piece).map some, ahead)

/-- Shows a prompt and reads a line, in which backspaces take effect; `none` at the end. -/
def readLine (prompt : String) (ahead : Typed) : Act (Except Failure (Option String) × Typed) := do
  match ← print [prompt] with
  | .error f => pure (.error (.editor f), ahead)
  | .ok _ =>
    match ← flush with
    | .error f => pure (.error (.editor f), ahead)
    | .ok _ => do
      match ← system (readTyped ahead) with
      | (.error f, ahead) => pure (.error (.editor f), ahead)
      | (.ok none, ahead) => pure (.ok none, ahead)
      | (.ok (some line), ahead) =>
        match Text.erase? line with
        | some line => pure (.ok (some line), ahead)
        | none => giveUp .cutCharacter

def pathNames (path : String) : List String :=
  (path.splitOn "/").filter fun name ↦ name ≠ "" && name ≠ "."

/-- A directory as the prompt shows it: below the home directory it begins with a tilde. -/
def shownDirectory (home directory : String) : String :=
  let at_ := pathNames directory
  let base := pathNames home
  if home.startsWith "/" && directory.startsWith "/" && base.isPrefixOf at_ then
    let below := at_.drop base.length
    if below.isEmpty then "~" else "~/" ++ "/".intercalate below
  else directory

def continuationPrompt : String := "> "

/-- The prompt for a command. -/
def prompt : Act String := do
  let directory ← ask .workingDirectory
  let home := (← ask .environment).ownHome
  let code := (← get).lastStatus.code?.getD 0
  let shown := match directory with
    | .ok d => shownDirectory home d
    | .error _ => shownDirectory home ""
  pure (Decimal.text code ++ "|" ++ Text.unspell shown ++ "\n$ ")

def typedAnswer (ahead : Typed) : Act (Answer × Typed) := do
  match ← readLine continuationPrompt ahead with
  | (.error f, ahead) => pure (.failed f, ahead)
  | (.ok none, ahead) => pure (.endOfInput, ahead)
  | (.ok (some line), ahead) => pure (.line line, ahead)

/-- Parses and runs a typed line, and remembers it with all that was read for it. -/
def runTyped (line : String) (ahead : Typed) : Act Typed := do
  let (parsed, whole, ahead) ← parseCommand typedAnswer line ahead
  if (← get).config.keepsHistory && !Text.isAllSpace whole then
    modify fun s ↦ { s with history := s.history.add whole }
  match parsed with
  | .ok (some l) => execute l
  | .ok none => pure ()
  | .error (.defect d) => giveUp d
  | .error (.failure f) =>
    if f.isMalformed then reportMalformed f
    else do
      log .error "psh::shell" ("failed to read command: " ++ f.message)
      report f
  pure ahead

/-- Prompts for commands and runs them until the input ends, at most so many. -/
def converse : Nat → Typed → Act Unit
  | 0, _ => system Sys.hang
  | n + 1, ahead => do
    notifyJobs
    match ← readLine (← prompt) ahead with
    | (.error f, ahead) => do
      logFailure "psh::shell" "prompt" (.error f)
      converse n ahead
    | (.ok none, _) => pure ()
    | (.ok (some line), ahead) => do
      converse n (← runTyped line ahead)

/-- Runs the commands of standard input: as a conversation at a terminal, else as a script. -/
def runStdin : Act Unit := do
  if ← ask (.isTerminal Sys.stdin) then converse Sys.patience []
  else
    let r ← runSource .ofStdin
    match r with
    | .ok _ => pure ()
    | .error f => report f
    logFailure "psh::shell" "run_script" r

end JobShell.Shell
