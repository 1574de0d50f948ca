import JobShell.Program.Sh.Run

namespace JobShell.Program.Sh

def firstVariables : List Variable :=
  let known (name value : String) : Variable := { name, value := some value, permanent := true }
  [known "IFS" " \t\n", { name := "MAIL", value := none, permanent := true },
    { name := "MAILPATH", value := none, permanent := true }, known "PATH" standardPath,
    known "PS1" "# ", known "PS2" "> ", known "PS4" "+ ", known "OPTIND" "1"]

def directoryAtStart : Work (Option String) := do
  match (← get).get? "PWD" with
  | none => pure none
  | some path =>
    if path.startsWith "/" then
      match ← ask (.inspect path), ← ask (.inspect ".") with
      | .ok a, .ok b => pure (if a.index = b.index then some path else none)
      | _, _ => pure none
    else pure none

def prepare : Work Unit := do
  modify fun s ↦ { s with vars := firstVariables }
  (← ask .environment).forM fun v ↦ do
    if isName v.1 then modify fun s ↦
      (s.change v.1 fun w ↦ { w with value := some v.2, exported := true }).heed v.1 (some v.2)
  assign "IFS" (some " \t\n") {}
  assign "OPTIND" (some "1") {}
  assign "PPID" (some (Decimal.text (← ask .parentPid))) {}
  let pid ← ask .ownPid
  modify fun s ↦ { s with ownPid := pid }
  noteDirectory (← directoryAtStart) false

structure Invocation where
  text : Option String := none
  file : Option Int := none

def readCommandLine (words : List String) : Work (Settings × List String) := do
  let others := ['c', 'l']
  let names := optionTable.map (·.1)
  modify fun s ↦ { s with options := names }
  let _ ← readSettings others (words.length + 1) words
  let s ← get
  let off := names.filter fun o ↦ !s.isOn o
  modify fun s ↦ { s with options := [] }
  let settings ← readSettings others (words.length + 1) words
  modify fun t ↦ { t with output := s.output }
  pure (settings, off)

def completeOptions (off : List String) : Work Unit := do
  let s ← get
  if s.isOn "stdin" && !s.isOn "interactive" && !off.contains "interactive" then
    if (← ask (.isTerminal Sys.stdin)) && (← ask (.isTerminal Sys.stdout)) then switch "interactive" true
  if (← get).isOn "interactive" && !off.contains "monitor" then switch "monitor" true

def readInvocation (words : List String) : Work Invocation := do
  let (settings, off) ← readCommandLine words
  let hasText := settings.seen.contains 'c'
  let words := settings.words
  if words.isEmpty then
    if hasText then abort "-c requires an argument"
    switch "stdin" true
  completeOptions off
  let s ← get
  let named (words : List String) : Work Unit :=
    match words with
    | [] => pure ()
    | name :: parameters => modify fun s ↦ { s with name, parameters }
  let input : Option Int := if s.isOn "stdin" then some Sys.stdin else none
  let invocation ← match words with
    | [] => pure { file := input }
    | word :: rest =>
      if hasText then
        named rest
        pure { text := some word, file := input }
      else if s.isOn "stdin" then
        modify fun s ↦ { s with parameters := words }
        pure { file := input }
      else
        let fd ← openFile word { readable := true }
        let fd ← moveAway fd
        named words
        pure { file := some fd }
  settleOptions
  pure invocation

def showPrompt (runner : Runner) (name : String) : Work Unit := do
  let s ← get
  let text := (s.get? name).getD ""
  let text ← match wordOfText? s text with
    | some w => expandDocument runner w
    | none => pure text
  let _ ← sys (Sys.writeAll Sys.stderr (Text.toBytes text))

def mostEnds : Nat := 50

def leavingHint : String := "\nUse \x22exit\x22 to leave shell.\n"

/-- Runs the commands of a file, at most so many. `ends` counts how often its end has just been met. -/
def commandLoop (run : Runs) (runner : Runner) (fd : Int) : Nat → Nat → Reader → Work Unit
  | 0, _, _ => sys Sys.hang
  | n + 1, ends, r => do
    let isTyped := (← get).isOn "interactive"
    if isTyped then showPrompt runner "PS1"
    let prompt : Work Unit := if isTyped then showPrompt runner "PS2" else pure ()
    let step : Work (Option Reader) := do
      match ← nextCommand (some fd) prompt Sys.patience r with
      | (.finished, _) => pure none
      | (.command t _, r) => do
        run {} t
        pure (some r)
    match ← attempt step with
    | .ok (some r) => commandLoop run runner fd n 0 r
    | .ok none => do
      let s ← get
      if ends < mostEnds then
        if s.isOn "ignoreeof" then
          let _ ← sys (Sys.writeAll Sys.stderr (Text.toBytes leavingHint))
          commandLoop run runner fd n (ends + 1) r
        else if s.isOn "interactive" then
          let _ ← sys (Sys.writeAll Sys.stderr (Text.toBytes "\n"))
    | .error (.return_ code) => code.forM setStatus
    | .error .misuse => do
      let s ← get
      if s.isOn "interactive" && s.isRoot then
        modify fun s ↦ { s with loops := 0, calls := 0, statusBefore := none }
        unshade 0
        commandLoop run runner fd n 0
          { source := { rest := [], isWhole := false, line := s.ahead } }
      else throw .misuse
    | .error l => throw l

def runDepth : Nat := Sys.patience

def start (run : Runs) (words : List String) : Work Unit := do
  prepare
  let i ← readInvocation words
  match i.text with
  | some text => do
    let r ← attempt (runText run { final := i.file.isNone } text)
    match r with
    | .error (.return_ code) => code.forM setStatus
    | .error .misuse => if !((← get).isOn "interactive") then throw .misuse
    | r => do
      let _ ← goOn r
  | none => pure ()
  let s ← get
  let input := i.file.orElse fun _ ↦ if s.isOn "interactive" then some Sys.stdin else none
  match input with
  | some fd =>
    commandLoop run (substitute run (runText run)) fd Sys.patience 0
      { source := { rest := [], isWhole := false } }
  | none => pure ()

def runAll (words : List String) : Work Int := do
  let run := runTree runDepth
  let code ← codeAfter (← attempt (start run words))
  let code ← lastWill (runText run) code
  let _ ← flush
  pure code

end JobShell.Program.Sh

namespace JobShell.Program

def sh (words : List String) : Sys Int := do
  let state : Sh.State := { name := words.headD "sh", line := 0 }
  match ← (Sh.runAll words.tail).run.run state with
  | (.ok code, _) => pure code
  | (.error _, s) => pure s.status

end JobShell.Program
