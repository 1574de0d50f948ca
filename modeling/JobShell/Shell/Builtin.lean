import JobShell.Options
import JobShell.Shell.Start
import JobShell.Signal

namespace JobShell

inductive Builtin
  | bg
  | exit
  | fg
  | jobs
  | kill
  deriving DecidableEq, Repr

namespace Builtin

def name : Builtin → String
  | bg => "bg"
  | exit => "exit"
  | fg => "fg"
  | jobs => "jobs"
  | kill => "kill"

def all : List Builtin := [bg, exit, fg, jobs, kill]

def ofName? (name : String) : Option Builtin := all.find? fun b ↦ b.name == name

def usage : Builtin → String
  | bg => "bg: bg [job_spec ...]"
  | exit => "exit: exit [n]"
  | fg => "fg: fg [job_spec]"
  | jobs => "Usage: jobs [-l | -p] [<jobspec>...]"
  | kill => "kill: kill [-s sigspec | -sigspec] pid | %jobspec ... or kill -l"

def usageCode : Int := 2

def misuse (b : Builtin) (what : String) : Failure :=
  .builtin (b.name ++ ": " ++ what ++ "\n" ++ b.usage) usageCode

def refusal (what : String) : Failure := .builtin what 1

def silent (code : Int) : Failure := .builtin "" code

end Builtin

/-- The job that a word names: `%n` or `n` the one of that number, `%`, `%%` and `%+` the current one,
`%text` the first whose command begins so. -/
def JobTable.named? (t : JobTable) (word : String) : Option JobId :=
  let marked := word.startsWith "%"
  let body := if marked then (word.drop 1).toString else word
  if marked && (body = "" || body = "%" || body = "+") then t.current?
  else
    match Decimal.nat32? body with
    | some n => (t.get? n).map (·.id)
    | none =>
      if marked then (t.jobs.find? fun j ↦ j.name.startsWith body).map (·.id) else none

namespace Shell

open Builtin

def tell (pieces : List String) : Try Unit := attempt (streamFailure <$> say (pieces ++ ["\n"]))

/-- The job that a word names for a builtin; the current one without a word. -/
def named (b : Builtin) (word : Option String) : Try JobId := do
  let t := (← doing get).jobs
  let found := match word with
    | some w => t.named? w
    | none => t.current?
  match found with
  | some id => pure id
  | none => throw (.noSuchJob (b.name ++ ": " ++ word.getD "current"))

def exitBuiltin (words : List String) : Try Unit := do
  if words.length > 1 then throw (refusal "exit: too many arguments")
  if !(← doing confirmExit) then throw (refusal "There are stopped jobs.")
  match words with
  | [] => doing (exit none)
  | word :: _ =>
    match Decimal.int32? word with
    | some n => doing (exit (some (.ofCode n)))
    | none => do
      doing (complain ("psh: exit: " ++ word ++ ": numeric argument required\n"))
      doing (exit (some (.ofCode 2)))

inductive Listing
  | plain
  | long
  | pids
  deriving DecidableEq, Repr

def Listing.flags : List Flag := [⟨["-l"], false⟩, ⟨["-p"], false⟩]

/-- The lines that a job is listed in, each in pieces. -/
def Listing.lines (style : Listing) (j : Job) : List (List String) :=
  match style with
  | plain => [j.pieces]
  | pids => (j.processes.take 1).map fun p ↦ [Decimal.text p.pid]
  | long =>
    match j.processes with
    | [] => []
    | p :: ps =>
      ("[" :: Decimal.text j.id :: "] " :: Decimal.text p.pid :: "\t" :: j.status.pieces
        ++ ["\t", p.text]) ::
      ps.map fun q ↦ ["    ", Decimal.text q.pid, "\t\t| ", q.text]

/-- How the words of `jobs` ask for the list, and the jobs that they name. -/
def Listing.read (words : List String) : Except Failure (Listing × List String) :=
  let bad (p : Options.Problem) : Failure := .badUsage (Options.complaint p Builtin.jobs.usage)
  match Options.read Listing.flags words with
  | .error p => .error (bad p)
  | .ok r =>
    if r.repeats || (r.has "-l" && r.has "-p") then .error (bad .noMatch)
    else
      .ok (if r.has "-l" then .long else if r.has "-p" then .pids else .plain, r.words)

def listJob (style : Listing) (id : JobId) : Try Unit := do
  match (← doing get).jobs.get? id with
  | none => pure ()
  | some j => (style.lines j).forM tell

def jobsBuiltin (words : List String) : Try Unit := do
  let (style, specs) ← attempt (pure (Listing.read words))
  if !(← doing get).isSubshell then
    let _ ← attempt reapTable
  let ids ←
    if specs.isEmpty then pure ((← doing get).jobs.jobs.map (·.id))
    else specs.mapM fun w ↦ named .jobs (some w)
  ids.forM (listJob style)
  doing <| modify fun s ↦
    { s with jobs := (ids.foldl JobTable.markNotified s.jobs).removeReported }

def fgBuiltin (words : List String) : Try Unit := do
  if words.length > 1 then throw (misuse .fg "too many arguments")
  if !(← doing get).isInteractive then throw (refusal "fg: no job control")
  let id ← named .fg words.head?
  match (← doing get).jobs.get? id with
  | none => pure ()
  | some j =>
    tell [j.name]
    if (← doing get).captured.isNone then attempt (streamFailure <$> flush)
  let status ← putInForeground id
  match status.code? with
  | some code => if code = 0 then pure () else throw (silent code)
  | none => throw (silent 1)

/-- Continues one job in the background. -/
def continueOne (word : Option String) : Try Unit := do
  let id ← named .bg word
  match (← doing get).jobs.get? id with
  | none => pure ()
  | some j =>
    if !j.isStopped then
      doing (complain ("psh: bg: job " ++ Decimal.text id ++ " already in background\n"))
    else
      putInBackground id
      attempt (streamFailure <$> say ["[", Decimal.text id, "] ", j.name, " &\n"])

/-- Does something to each of a list, reports every failure, and tells whether all went well. -/
def eachReported {α : Type} (f : α → Try Unit) : List α → Act Bool
  | [] => pure true
  | a :: as => do
    match ← (f a).run with
    | .ok _ => eachReported f as
    | .error e => do
      report e
      let _ ← eachReported f as
      pure false

def bgBuiltin (words : List String) : Try Unit := do
  if !(← doing get).isInteractive then throw (refusal "bg: no job control")
  let specs := if words.isEmpty then [none] else words.map some
  if !(← doing (eachReported continueOne specs)) then throw (silent 1)

/-- The signal that a word names, by its number or by its name with or without `SIG`, in any case. -/
def signalNamed (word : String) : Except Failure Signal :=
  let found := match Decimal.int32? word with
    | some n => Signal.ofNumber? n
    | none =>
      let name := Text.upper word
      Signal.ofName? (if name.startsWith "SIG" then name else "SIG" ++ name)
  match found with
  | some s => .ok s
  | none => .error (refusal ("kill: " ++ word ++ ": invalid signal specification"))

/-- What `kill` is asked to do. -/
inductive KillRequest
  | list
  | send (s : Signal) (targets : List String)
  deriving DecidableEq, Repr

def KillRequest.read (words : List String) : Except Failure KillRequest := do
  let sending (s : Signal) (targets : List String) : Except Failure KillRequest :=
    if targets.isEmpty then .error (misuse .kill "not enough arguments") else .ok (.send s targets)
  match words with
  | [] => .error (misuse .kill "not enough arguments")
  | "-l" :: _ => .ok .list
  | "-s" :: rest =>
    match rest with
    | [] => .error (misuse .kill "-s: option requires an argument")
    | name :: targets => do sending (← signalNamed name) targets
  | "--" :: targets => sending .term targets
  | word :: targets =>
    if word.startsWith "-" && word.utf8ByteSize > 1 then do
      sending (← signalNamed (word.drop 1).toString) targets
    else sending .term words

def needsContinue (s : Signal) : Bool := decide (s ≠ .cont ∧ s ≠ .kill)

/-- Sends a signal to what a word names: a job, or a process by its number. -/
def sendTo (s : Signal) (target : String) : Try Unit := do
  if target.startsWith "%" then
    let id ← named .kill (some target)
    signalJob id s
    let stopped := ((← doing get).jobs.get? id).any (·.isStopped)
    if stopped && needsContinue s then signalJob id .cont
  else
    match Decimal.int32? target with
    | none => throw (refusal ("kill: " ++ target ++ ": arguments must be process or job IDs"))
    | some pid =>
      match ← doing (ask (.kill pid (some s))) with
      | .ok _ => pure ()
      | .error e => throw (refusal ("kill: (" ++ Decimal.text pid ++ ") - " ++ e.description))

def signalLine (s : Signal) : List String :=
  (if s.number < 10 then [" "] else []) ++ [Decimal.text s.number, ") ", s.name]

def killBuiltin (words : List String) : Try Unit := do
  match ← attempt (pure (KillRequest.read words)) with
  | .list => Signal.all.forM fun s ↦ tell (signalLine s)
  | .send s targets => if !(← doing (eachReported (sendTo s) targets)) then throw (silent 1)

def call (b : Builtin) (words : List String) : Try Unit :=
  match b with
  | .bg => bgBuiltin words
  | .exit => exitBuiltin words
  | .fg => fgBuiltin words
  | .jobs => jobsBuiltin words
  | .kill => killBuiltin words

def builtinStatus (r : Except Failure Unit) : ExitStatus :=
  match r with
  | .ok _ => .ofCode 0
  | .error (.builtin _ code) => .ofCode code
  | .error (.badUsage _) => .ofCode Builtin.usageCode
  | .error _ => .ofCode 1

def runBuiltin (b : Builtin) (words : List String) : Act ExitStatus := do
  let r ← (call b words).run
  match r with
  | .ok _ => pure ()
  | .error f => if f.message.isEmpty then pure () else report f
  pure (builtinStatus r)

end Shell

end JobShell
