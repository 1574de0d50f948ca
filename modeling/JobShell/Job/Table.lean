import JobShell.Job.Basic
import JobShell.Least

namespace JobShell

structure JobTable where
  jobs : List Job := []
  focus : Option JobId := none
  deriving DecidableEq, Repr

namespace JobTable

def get? (t : JobTable) (id : JobId) : Option Job := t.jobs.find? fun j ↦ j.id == id

def modify (t : JobTable) (id : JobId) (f : Job → Job) : JobTable :=
  { t with jobs := t.jobs.map fun j ↦ if j.id = id then f j else j }

def nextId (t : JobTable) : JobId := leastUnused 1 (t.jobs.map (·.id))

def add (t : JobTable) (j : Job) : JobTable :=
  { jobs := t.jobs ++ [j], focus := some j.id }

def insert (t : JobTable) (j : Job) : Except Defect JobTable :=
  if (t.get? j.id).isSome then .error (.registeredTwice j.id) else .ok (t.add j)

def register (t : JobTable) (group : Option Int) (name : String) (connector : Connector)
    (processes : List Process) : JobId × JobTable :=
  let id := t.nextId
  (id, t.add (.start id group name connector processes))

def remove (t : JobTable) (id : JobId) : Option Job × JobTable :=
  match t.get? id with
  | none => (none, t)
  | some j =>
    (some j, {
      jobs := t.jobs.eraseP fun j ↦ j.id == id
      focus := if t.focus = some id then none else t.focus })

/-- The job that commands act on by default: the last one stopped or put in the background, else the
last one registered. -/
def current? (t : JobTable) : Option JobId :=
  (t.focus.filter fun id ↦ (t.get? id).isSome) <|> t.jobs.getLast?.map (·.id)

def setCurrent (t : JobTable) (id : JobId) : JobTable := { t with focus := some id }

def hasStopped (t : JobTable) : Bool := t.jobs.any (·.isStopped)

def markNotified (t : JobTable) (id : JobId) : JobTable :=
  t.modify id fun j ↦ { j with notified := true }

def removeReported (t : JobTable) : JobTable :=
  { t with jobs := t.jobs.filter fun j ↦ !(j.notified && j.isCompleted) }

def discardCompleted (t : JobTable) : JobTable :=
  { t with jobs := t.jobs.filter fun j ↦ !j.isCompleted }

/-- Collects the changes of jobs in order, up to the first failure, and lists the jobs that
changed. -/
def reapJobs : List Job → Sys (Except Failure (List (JobId × JobStatus)) × List Job)
  | [] => pure (.ok [], [])
  | j :: js => do
    match ← j.poll with
    | (.error f, j) => pure (.error f, j :: js)
    | (.ok changed, j) =>
      let j := if changed then { j with notified := false } else j
      let (r, js) ← reapJobs js
      pure (if changed then r.map ((j.id, j.status) :: ·) else r, j :: js)

def lastStopped? (changed : List (JobId × JobStatus)) : Option JobId :=
  (changed.filter fun c ↦ c.2 = .stopped).getLast?.map (·.1)

def reap (t : JobTable) : Sys (Except Failure (List (JobId × JobStatus)) × JobTable) := do
  let (r, js) ← reapJobs t.jobs
  match r with
  | .error f => pure (.error f, { t with jobs := js })
  | .ok changed =>
    pure (.ok changed, { jobs := js, focus := lastStopped? changed <|> t.focus })

/-- Whether a notification shows the job: a running job is not worth a line, nor is the end of one
that last ran in the foreground. -/
def announces (j : Job) : Bool :=
  match j.status with
  | .running => false
  | .stopped => true
  | _ => !j.foreground

/-- Shows jobs not shown yet, in order, up to the first line that cannot be written. A line is given
piece by piece. -/
def notifyJobs {m : Type → Type} [Monad m] (emit : List String → m (Except StreamFault Unit)) :
    List Job → m (Except StreamFault Unit × List Job)
  | [] => pure (.ok (), [])
  | j :: js => do
    let shown ← if !j.notified && announces j then emit (j.pieces ++ ["\n"]) else pure (.ok ())
    match shown with
    | .error f => pure (.error f, j :: js)
    | .ok _ =>
      let (r, js) ← notifyJobs emit js
      pure (r, { j with notified := true } :: js)

theorem notifyJobs_cons {m : Type → Type} [Monad m]
    (emit : List String → m (Except StreamFault Unit)) (j : Job) (js : List Job) :
    notifyJobs emit (j :: js) =
      (if !j.notified && announces j then emit (j.pieces ++ ["\n"]) else pure (.ok ())) >>=
        fun shown ↦ match shown with
          | .error f => pure (.error f, j :: js)
          | .ok _ => notifyJobs emit js >>= fun x ↦ pure (x.1, { j with notified := true } :: x.2) := by
  rw [notifyJobs]
  split <;> rfl

/-- Shows stopped and completed jobs not shown yet, then drops the completed ones. -/
def notify {m : Type → Type} [Monad m] (emit : List String → m (Except StreamFault Unit))
    (t : JobTable) : m (Except StreamFault Unit × JobTable) := do
  let (r, js) ← notifyJobs emit t.jobs
  let t := { t with jobs := js }
  match r with
  | .error f => pure (.error f, t)
  | .ok _ => pure (.ok (), t.removeReported)

def signalEach (s : Signal) : List Process → Sys (Except Failure Unit)
  | [] => pure (.ok ())
  | p :: ps => do
    match ← Sys.ask (.kill p.pid (some s)) with
    | .error e => pure (.error (.system e))
    | .ok _ => signalEach s ps

def jobName (id : JobId) : String := "%" ++ Decimal.text id

/-- Sends a signal to a job: to its process group, or to each process that has not completed. -/
def signal (t : JobTable) (id : JobId) (s : Signal) : Sys (Except Failure Unit) :=
  match t.get? id with
  | none => pure (.error (.noSuchJob (jobName id)))
  | some j =>
    match j.group with
    | some g => do
      match ← Sys.ask (.kill (-g) (some s)) with
      | .error e => pure (.error (.system e))
      | .ok _ => pure (.ok ())
    | none => signalEach s (j.processes.filter (!·.isCompleted))

def logFailure (what : String) (r : Except Failure Unit) : Sys Unit :=
  match r with
  | .ok _ => pure ()
  | .error f => Sys.ask (.log .error "psh::core::job" (what ++ ": " ++ f.message))

def hangUpAll (t : JobTable) : Sys Unit :=
  (t.jobs.filter (!·.isCompleted)).forM fun j ↦ do
    let shown := "job [" ++ Decimal.text j.id ++ "]"
    Sys.ask (.log .info "psh::core::job" ("sending SIGHUP to " ++ shown))
    logFailure ("failed to hang up " ++ shown) (← t.signal j.id .hup)
    if j.isStopped then logFailure ("failed to continue " ++ shown) (← t.signal j.id .cont)

end JobTable

end JobShell
