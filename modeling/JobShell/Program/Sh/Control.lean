import JobShell.Program.Sh.Builtin.Directory
import JobShell.Program.Sh.Builtin.Input
import JobShell.Program.Sh.Builtin.Limit
import JobShell.Program.Sh.Builtin.Name
import JobShell.Program.Sh.Builtin.Output
import JobShell.Program.Sh.Builtin.Signal
import JobShell.Program.Sh.Builtin.Test
import JobShell.Program.Sh.Builtin.Variable
import JobShell.Program.Sh.Redirect
import JobShell.Program.Sh.Trap

namespace JobShell.Program.Sh

def evalCommand (text : RunsText) (m : Mode) (words : List String) : Work Int := do
  if words.isEmpty then pure 0 else text { tested := m.tested } (" ".intercalate words)

def fileInPlace (name : String) : Work String := do
  if !isNamed name then pure name
  else
    let candidates := (directoriesOf (← get).path).map fun d ↦ inDirectory d name
    let found ← candidates.findM? fun path ↦ do
      match ← ask (.inspect path) with
      | .ok i => pure (i.kind = .regular : Bool)
      | .error _ => pure false
    match found with
    | some path => pure path
    | none => abort (name ++ ": not found")

def dotCommand (run : Runs) (words : List String) : Work Int := do
  match ← withoutOptions words with
  | [] => pure 0
  | name :: _ => do
    let path ← fileInPlace name
    let fd ← openFile path { readable := true }
    let before := (← get).command
    modify fun s ↦ { s with command := some path }
    let r ← attempt (runFile run fd)
    modify fun s ↦ { s with command := before }
    match r with
    | .error (.return_ (some code)) => pure code
    | .error (.return_ none) => return (← get).status
    | r => goOn r

def exitCommand (words : List String) : Work Int := do
  match words with
  | [] => do
    let s ← get
    throw (.exit (s.statusBefore.getD s.status))
  | w :: _ => do
    let code ← numberOf w
    throw (.exit code)

def returnCommand (words : List String) : Work Int := do
  match words with
  | [] => throw (.return_ none)
  | w :: _ => do
    let code ← numberOf w
    throw (.return_ (some code))

def leaveCommand (leave : Nat → Leave) (words : List String) : Work Int := do
  let n ← match words with
    | [] => pure 1
    | w :: _ => do
      let n ← numberOf w
      if n = 0 then abort ("Illegal number: " ++ w) else pure n
  let n := min n (← get).loops
  if n = 0 then pure 0
  else
    setStatus 0
    throw (leave n)

def execCommand (words : List String) : Work Int := do
  match words with
  | [] => pure 0
  | words => do
    switch "interactive" false
    switch "monitor" false
    become (← get).path 0 words

/-- A built-in command by its name, with its words. -/
def builtin? (run : Runs) (text : RunsText) (m : Mode) (name : String) (words : List String) :
    Option (Work Int) :=
  match name with
  | ":" | "true" => some (pure 0)
  | "false" => some (pure 1)
  | "." => some (dotCommand run words)
  | "eval" => some (evalCommand text m words)
  | "exec" => some (execCommand words)
  | "exit" => some (exitCommand words)
  | "return" => some (returnCommand words)
  | "break" => some (leaveCommand .leaveLoop words)
  | "continue" => some (leaveCommand .nextRound words)
  | "export" => some (exportCommand words)
  | "readonly" => some (readonlyCommand words)
  | "unset" => some (unsetCommand words)
  | "local" => some (localCommand words)
  | "set" => some (setCommand words)
  | "shift" => some (shiftCommand words)
  | "getopts" => some (getoptsCommand words)
  | "trap" => some (trapCommand words)
  | "kill" => some (killCommand words)
  | "times" => some (timesCommand words)
  | "ulimit" => some (ulimitCommand words)
  | "umask" => some (umaskCommand words)
  | "cd" | "chdir" => some (cdCommand words)
  | "pwd" => some (pwdCommand words)
  | "echo" => some (echoCommand words)
  | "printf" => some (printfCommand words)
  | "read" => some (readCommandWords words)
  | "test" => some (testCommand false words)
  | "[" => some (testCommand true words)
  | "alias" => some (aliasCommand words)
  | "unalias" => some (unaliasCommand words)
  | "hash" => some (hashCommand words)
  | "type" => some (typeCommand words)
  | "command" => some (commandCommand words)
  | "jobs" => some (jobsCommand words)
  | "wait" => some (waitCommand words)
  | "fg" | "bg" => some (moveCommand words)
  | _ => none

def underName (name : String) (work : Work Int) : Work Unit := do
  let before := (← get).command
  modify fun s ↦ { s with command := some name }
  let r ← attempt do
    let code ← work
    if ← flush then pure code
    else
      tell (name ++ ": I/O error")
      pure ((code.toNat ||| 1 : Nat) : Int)
  modify fun s ↦ { s with command := before, output := ByteArray.empty }
  setStatus (← goOn r)

end JobShell.Program.Sh
