import JobShell.Job.Action
import JobShell.Machine.Boot
import JobShell.Shell.Script

namespace JobShell

/-- What a child does, one thing after another. -/
inductive Deed
  | stop
  | exit (code : Int)
  | signal (s : Signal)
  | hang
  deriving DecidableEq, Repr

/-- A child to be started: how its job shows it, and what it does. -/
structure Child where
  text : String
  plan : List Deed
  deriving DecidableEq, Repr

namespace Child

/-- Carries out a plan; at its end the child exits with zero. -/
def carryOut {α : Type} : List Deed → Sys α
  | [] => Sys.exit 0
  | .stop :: rest => do
    let _ ← Sys.ask (.kill (← Sys.ask .ownPid) (some .stop))
    carryOut rest
  | .exit code :: _ => Sys.exit code
  | .signal s :: rest => do
    let _ ← Sys.ask (.kill (← Sys.ask .ownPid) (some s))
    carryOut rest
  | .hang :: _ => Sys.hang

def resetSignals : Sys Unit :=
  Signal.all.forM fun s ↦ do
    let _ ← Sys.ask (.setDisposition s .default)

/-- Starts a child, in a group if one is given: zero stands for a group of its own. -/
def start (group : Option Int) (c : Child) : Sys (Except Failure Int) := do
  match ← Sys.ask .fork with
  | .error e => pure (.error (.forkFailed e))
  | .ok .child => do
    resetSignals
    group.forM fun g ↦ do
      let _ ← Sys.ask (.setGroup 0 g)
    carryOut c.plan
  | .ok (.parent pid) => do
    group.forM fun g ↦ do
      let _ ← Sys.ask (.setGroup pid g)
    pure (.ok pid)

/-- Starts children; with a group, the first leads it. -/
def startAll (group : Option Int) : List Child → Sys (Except Failure (List Process))
  | [] => pure (.ok [])
  | c :: cs => do
    match ← c.start group with
    | .error f => pure (.error f)
    | .ok pid =>
      let r ← startAll (group.map fun g ↦ if g = 0 then pid else g) cs
      pure (r.map (⟨pid, c.text, .running⟩ :: ·))

end Child

namespace Session

/-- What a shell can be asked for. -/
inductive Action
  | script (text : String)
  | file (path : String)
  | builtin (name : String) (words : List String)
  | call (name : String) (words : List String)
  | spawn (name : String) (children : List Child) (grouped foreground : Bool)
  | await (id : JobId) (untilStopped : Bool)
  | foreground (id : JobId)
  | background (id : JobId)
  | reapJobs
  | notifyJobs
  | exit (code : Option Int)
  | table (a : JobTable.Action)
  deriving DecidableEq, Repr

/-- What it tells. A builtin also has an output; `noBuiltin` says that there is none of that name. -/
inductive Told
  | status (s : ExitStatus)
  | table (t : JobTable.Told)
  | output (text : String) (result : Told)
  | noBuiltin
  deriving DecidableEq, Repr

def Told.ofUnit (r : Except Failure Unit) : Told := .table (.ofUnit r)

def Told.ok : Told := .table .ok

def Told.ofStatus : Except Failure ExitStatus → Told
  | .ok s => .status s
  | .error f => .table (.failed f)

open Shell

/-- Catches what builtins say. -/
def catching (x : Act Told) : Act Told := do
  modify fun s ↦ { s with captured := some "" }
  let caught ← ensuring
    (do
      let told ← x
      pure (Told.output ((← get).captured.getD "") told))
    (modify fun s ↦ { s with captured := none })
  pure caught

/-- Starts children and makes them a job. -/
def spawn (name : String) (children : List Child) (grouped foreground : Bool) : Act Told := do
  match ← system (Child.startAll (if grouped then some 0 else none) children) with
  | .error f => pure (.table (.failed f))
  | .ok ps => do
    let group := if grouped then ps.head?.map (·.pid) else none
    let connector : Connector := if foreground then .single else .background
    let (id, jobs) := (← get).jobs.register group name connector ps
    setJobs jobs
    pure (.table (.id id))

def awaitJob (id : JobId) (untilStopped : Bool) : Act Told := do
  match (← get).jobs.get? id with
  | none => pure (.table .missing)
  | some j => do
    system ((j.processes.filter (!·.isCompleted)).forM fun p ↦ Sys.ask (.watch p.pid untilStopped))
    pure .ok

def perform : Action → Act Told
  | .script text => return .ofUnit (← runText text)
  | .file path => return .ofUnit (← runFile path)
  | .builtin name words =>
    match Builtin.ofName? name with
    | none => pure .noBuiltin
    | some b => catching do return .status (← runBuiltin b words)
  | .call name words =>
    match Builtin.ofName? name with
    | none => pure .noBuiltin
    | some b => catching do return .ofUnit (← (Shell.call b words).run)
  | .spawn name children grouped foreground => spawn name children grouped foreground
  | .await id untilStopped => awaitJob id untilStopped
  | .foreground id => return .ofStatus (← (putInForeground id).run)
  | .background id => return .ofUnit (← (putInBackground id).run)
  | .reapJobs => do
    Shell.reapJobs
    pure .ok
  | .notifyJobs => do
    Shell.notifyJobs
    pure .ok
  | .exit code => Shell.exit (code.map .ofCode)
  | .table a => do
    let (told, jobs) ← system ((← get).jobs.perform a)
    setJobs jobs
    pure (.table told)

def run (a : Action) (s : Shell) : Sys (Told × Shell) := do
  let (r, s) ← (ensuring (perform a) (discard flush)).run.run s
  pure (match r with
    | .ok told => told
    | .error d => .table (.defect d), s)

structure Printed where
  out : ByteArray
  err : ByteArray

structure Step where
  told : Told
  printed : Printed
  shell : Shell

/-- How a session ended: with a shell that could go on, with one that left in the middle of an action,
or before it began. -/
inductive Ending
  | «open» (s : Shell)
  | left (report : WaitReport) (printed : Printed)
  | stuck
  | refused (f : Failure)

structure Outcome where
  steps : List Step
  ending : Ending
  files : List Machine.Entry

structure Stage where
  machine : Machine (Told × Shell)
  capture : Machine.Capture

def printedSince (before : Machine (Told × Shell)) (s : Stage) : Printed :=
  let since (node : Nat) : ByteArray :=
    let data := Machine.contentOf s.machine node
    data.extract (Machine.contentOf before node).size data.size
  ⟨since s.capture.out, since s.capture.err⟩

def stepOn (s : Stage) (shell : Shell) (a : Action) :
    Machine.Result (Told × Shell) × Printed × Stage :=
  let before := s.machine
  let (result, machine) := (before.load (run a shell)).run
  let s := { s with machine }
  (result, printedSince before s, s)

def runFrom (s : Stage) (shell : Shell) : List Action → List Step × Ending × Stage
  | [] => ([], .open shell, s)
  | a :: as =>
    match stepOn s shell a with
    | (.value (told, shell), printed, s) =>
      let (steps, ending, s) := runFrom s shell as
      (⟨told, printed, shell⟩ :: steps, ending, s)
    | (.ended report, printed, s) => ([], .left report printed, s)
    | (.stuck, _, s) => ([], .stuck, s)

/-- Brings up a shell and carries out actions. -/
def hold (programs : List (String × Machine.Program)) (setting : Machine.Setting)
    (config : ShellConfig) (actions : List Action) : Outcome :=
  let start : Sys (Told × Shell) := do
    let (r, s) ← (Shell.bringUp config).run.run.run (Shell.make .script false)
    pure (match r with
      | .ok r => .ofUnit r
      | .error d => .table (.defect d), s)
  let (machine, capture) := Machine.boot programs setting start
  match machine.run with
  | (.value (.table (.failed f), _), machine) => ⟨[], .refused f, machine.entries⟩
  | (.value (_, shell), machine) =>
    let (steps, ending, s) := runFrom ⟨machine, capture⟩ shell actions
    ⟨steps, ending, s.machine.entries⟩
  | (.ended report, machine) => ⟨[], .left report ⟨.empty, .empty⟩, machine.entries⟩
  | (.stuck, machine) => ⟨[], .stuck, machine.entries⟩

end Session

end JobShell
