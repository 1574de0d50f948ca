import JobShell.Program.Sh.Builtin.Basic
import JobShell.Program.Sh.Job

namespace JobShell.Program.Sh

/-- A job by its name: the current one, the one before it, or one by its number. Jobs have no texts by which
they could be named; each has the empty one. -/
def jobNamed (name : Option String) (controlled : Bool) : Work Job := do
  let jobs := (← get).jobs
  let shown := name.getD "(null)"
  let missing : Work Job := abort ("No such job: " ++ shown)
  let given (j : Option Job) (none_ : String) : Work Job := do
    match j with
    | none => abort none_
    | some j =>
      if controlled then abort ("job " ++ shown ++ " not created under job control") else pure j
  let current : Work Job := given jobs.head? "No current job"
  match (name.getD "%").toList with
  | ['%'] | ['%', '+'] | ['%', '%'] => current
  | ['%', '-'] => given jobs.tail.head? "No previous job"
  | '%' :: rest =>
    let number := if rest.all Decimal.isDigit then Decimal.value rest else 0
    match jobs.find? (·.number == number) with
    | some j => given (some j) ""
    | none =>
      if rest = ['?'] then
        match jobs with
        | [] => missing
        | [j] => given (some j) ""
        | _ => abort (shown ++ ": ambiguous")
      else missing
  | _ => missing

inductive Detail
  | plain
  | pids
  | leader
  deriving DecidableEq

def Job.stateText (j : Job) : String :=
  if !j.isDone then "Running"
  else
    match j.children.getLast?.bind (·.report) with
    | some (.exited 0) => "Done"
    | some (.exited code) => "Done(" ++ Decimal.text code ++ ")"
    | some (.killed s _) => deathText s
    | some (.killedRealTime number) => realTimeText number
    | _ => ""

def spaces (n : Nat) : String := String.ofList (List.replicate n ' ')

def jobColumn : Nat := 33

def Job.shown (j : Job) (mark : Char) (detail : Detail) : String :=
  let pid (c : Child) : String := Decimal.text c.pid
  match j.children with
  | [] => ""
  | first :: others =>
    let number := "[" ++ Decimal.text j.number ++ "] "
    let front := number ++ String.singleton mark ++ " "
    let pad (text : String) : String := text ++ spaces (max 1 (jobColumn - text.length))
    match detail with
    | .leader => pid first ++ "\n"
    | .plain => pad (front ++ j.stateText) ++ String.join (others.map fun _ ↦ " | ") ++ "\n"
    | .pids =>
      let head := pad (front ++ pid first ++ " " ++ j.stateText)
      let indent := spaces front.length
      let tails := others.map fun c ↦
        let text := indent ++ pid c ++ " "
        " |\n" ++ text ++ spaces (max 1 (jobColumn - text.length))
      head ++ String.join tails ++ "\n"

def showJob (detail : Detail) (number : Nat) : Work Unit := do
  let jobs := (← get).jobs
  match jobs.find? (·.number == number) with
  | none => pure ()
  | some j => do
    let isAt (other : Option Job) : Bool := other.any (·.number == number)
    let mark := if isAt jobs.head? then '+' else if isAt jobs.tail.head? then '-' else ' '
    sayText (j.shown mark detail)
    if detail ≠ .leader then
      let _ ← flush
      changeJob number fun j ↦ { j with changed := false }
      if j.isDone then dropJob number

def jobsCommand (words : List String) : Work Int := do
  let (flags, words) ← readOptions "lp" "" words
  let detail : Detail := match flags.getLast? with
    | none => .plain
    | some (c, _) => if c = 'l' then .pids else .leader
  if words.isEmpty then
    takeReports
    (← get).jobs.forM fun j ↦ showJob detail j.number
  else
    words.forM fun word ↦ do showJob detail (← jobNamed (some word) false).number
  pure 0

def noticeSignal : Work Int := do
  let traps := (← get).traps
  let come ← traps.filterM fun t ↦ do
    match signalNumbered? t.1 with
    | some s => if t.2.isEmpty then pure false else ask (.takeNotice s)
    | none => pure false
  modify fun s ↦ { s with noticed := s.noticed ++ come.map (·.1) }
  pure ((come.getLast?.map fun t ↦ (t.1 : Int)).getD 0)

def waitForAll : Nat → Work Int
  | 0 => sys Sys.hang
  | n + 1 => do
    modify fun s ↦
      let done := s.jobs.takeWhile Job.isDone
      { s with jobs := done.map (fun j ↦ { j with waited := true }) ++ s.jobs.drop done.length }
    if (← get).jobs.all Job.isDone then pure 0
    else if ← awaitAny then waitForAll n
    else return 128 + (← noticeSignal)

/-- Waits for jobs by their names or pids; the status of the last that there is counts. -/
def waitForEach : Int → List String → Work Int
  | code, [] => pure code
  | code, word :: rest => do
    let job ← if word.startsWith "%" then some <$> jobNamed (some word) false
      else do
        let pid ← numberOf word
        pure ((← get).jobs.find? fun j ↦ j.pid? == some (pid : Int))
    match job with
    | none => waitForEach code rest
    | some j => do
      if ← awaitJobFor true j.number Sys.patience then
        changeJob j.number fun j ↦ { j with waited := true }
        let code := ((← jobNumbered? j.number).map Job.code).getD code
        waitForEach code rest
      else return 128 + (← noticeSignal)

def waitCommand (words : List String) : Work Int := do
  match ← withoutOptions words with
  | [] => waitForAll Sys.patience
  | words => waitForEach 127 words

def moveCommand (words : List String) : Work Int := do
  let words ← withoutOptions words
  let _ ← jobNamed words.head? true
  pure 0

end JobShell.Program.Sh
