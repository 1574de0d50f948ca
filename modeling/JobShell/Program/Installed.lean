import JobShell.Machine.Basic
import JobShell.Program.Cat
import JobShell.Program.Count
import JobShell.Program.Ends.Head
import JobShell.Program.Ends.Tail
import JobShell.Program.Flags
import JobShell.Program.Floating
import JobShell.Program.Grep
import JobShell.Program.Print
import JobShell.Program.Sh.Start
import JobShell.Program.Sorting
import JobShell.Program.Translate

namespace JobShell.Program

def succeed (_ : List String) : Sys Int := pure 0

def fail (_ : List String) : Sys Int := pure 1

def namesHere (path : String) : Held Bool := do
  let parts := path.splitOn "/"
  if !path.startsWith "/" || parts.contains "." || parts.contains ".." then pure false
  else
    match ← Held.ask (.inspect path), ← Held.ask (.inspect ".") with
    | .ok there, .ok here => pure (there.index = here.index)
    | _, _ => pure false

/-- The program `pwd`. The logical name is the one that the environment tells, if it is right. -/
def pwd (words : List String) : Sys Int :=
  let name := words.headD "pwd"
  let f := Switch.read [{ key := "L", letters := "L", long := "logical" },
    { key := "P", letters := "P", long := "physical" }] words.tail
  f.run name 1 do
    if !f.words.isEmpty then Held.blame (name ++ ": ignoring non-option arguments")
    let told := ((← Held.ask .environment).get? "PWD").getD ""
    let logical := (f.flags.getLast?.map (·.1)) = some "L"
    if logical && (← namesHere told) then do
      Held.say (told ++ "\n")
      pure 0
    else
      match ← Held.ask .workingDirectory with
      | .ok directory => do
        Held.say (directory ++ "\n")
        pure 0
      | .error e => do
        Held.blame (name ++ ": " ++ e.libraryText)
        pure 1

def printenv (words : List String) : Sys Int :=
  let name := words.headD "printenv"
  let f := Switch.readStrictly [{ key := "0", letters := "0", long := "null" }] words.tail
  f.run name 2 do
    let environment ← Held.ask .environment
    let line (s : String) : String := s ++ if f.has "0" then "\x00" else "\n"
    if f.words.isEmpty then do
      Held.say (String.join (environment.map fun v ↦ line (v.1 ++ "=" ++ v.2)))
      pure 0
    else do
      let found := f.words.map fun w ↦ if w.toList.contains '=' then none else environment.get? w
      Held.say (String.join ((found.filterMap id).map line))
      pure (if found.all Option.isSome then 0 else 1)

def secondsOf? : List Char → Option Nat
  | [] | ['s'] => some 1
  | ['m'] => some 60
  | ['h'] => some 3600
  | ['d'] => some 86400
  | _ => none

def interval? (word : String) : Option Nat :=
  match Precision.double.read word.toList with
  | some (.finite negative m e, _, rest) =>
    if negative && m ≠ 0 then none
    else (secondsOf? rest).map fun u ↦
      let (n, d) := shifted m 1 e
      roundQuotient (n * u * 1000) d
  | some (.infinite false, _, rest) => (secondsOf? rest).map fun _ ↦ Sys.patience
  | _ => none

/-- The program `sleep`: sleeps for the sum of its intervals. -/
def sleep (words : List String) : Sys Int :=
  let name := words.headD "sleep"
  let f := Switch.read [] words.tail
  f.run name 1 do
    if f.words.isEmpty then do
      liftM (tryHelp name "missing operand")
      pure 1
    else
      let intervals := f.words.map fun w ↦ (w, interval? w)
      let bad := intervals.filter (·.2.isNone)
      if bad.isEmpty then do
        Held.ask (.sleep ((intervals.map fun i ↦ i.2.getD 0).foldl (· + ·) 0))
        pure 0
      else do
        bad.forM fun i ↦ Held.blame (name ++ ": invalid time interval " ++ quote i.1)
        Held.blame ("Try '" ++ name ++ " --help' for more information.")
        pure 1

def installed : List (String × Machine.Program) :=
  [("sh", sh), ("echo", echo), ("cat", cat), ("true", succeed), ("false", fail), ("printf", printf),
    ("tr", tr), ("grep", grep), ("sort", sort), ("head", head), ("tail", tail), ("wc", wc),
    ("sleep", sleep), ("pwd", pwd), ("printenv", printenv)]

end JobShell.Program
