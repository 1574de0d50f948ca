import JobShell.Job.Table

namespace JobShell.JobTable

/-- What can be done to a job table. -/
inductive Action
  | register (group : Option Int) (name : String) (connector : Connector) (processes : List Process)
  | insert (j : Job)
  | remove (id : JobId)
  | get (id : JobId)
  | update (id : JobId) (index : Nat) (report : WaitReport)
  | markRunning (id : JobId)
  | setForeground (id : JobId) (value : Bool)
  | wait (id : JobId) (untraced : Bool)
  | setCurrent (id : JobId)
  | markNotified (id : JobId)
  | removeReported
  | discardCompleted
  | hangUpAll
  | notify
  | reap
  | signal (id : JobId) (s : Signal)
  deriving DecidableEq, Repr

/-- What an operation tells; `missing` that there is no such job or process. -/
inductive Told
  | ok
  | missing
  | id (n : JobId)
  | text (s : String)
  | changed (b : Bool)
  | reaped (changes : List (JobId × JobStatus))
  | failed (f : Failure)
  | defect (d : Defect)
  deriving DecidableEq, Repr

def Told.ofJob : Option Job → Told
  | some j => .text j.text
  | none => .missing

def Told.ofUnit : Except Failure Unit → Told
  | .ok _ => .ok
  | .error f => .failed f

def change (t : JobTable) (id : JobId) (f : Job → Job) : Told × JobTable :=
  if (t.get? id).isSome then (.ok, t.modify id f) else (.missing, t)

/-- Records a report for the process at a place in a job. -/
def updateProcess (t : JobTable) (id : JobId) (index : Nat) (report : WaitReport) :
    Told × JobTable :=
  match (t.get? id).bind fun j ↦ j.processes[index]? with
  | none => (.missing, t)
  | some p =>
    let (p, changed) := p.update report
    (.changed changed, t.modify id fun j ↦ { j with processes := j.processes.set index p })

def await (t : JobTable) (id : JobId) (untraced : Bool) : Sys (Told × JobTable) :=
  match t.get? id with
  | none => pure (.missing, t)
  | some j => do
    let (r, ps) ← Process.awaitAll untraced j.processes
    pure (.ofUnit r, t.modify id fun j ↦ { j with processes := ps })

def notification (t : JobTable) : String × JobTable :=
  let emit (line : List String) : StateM String (Except StreamFault Unit) :=
    modifyGet fun s ↦ (.ok (), s ++ String.join line)
  let ((_, t), shown) := (t.notify emit).run ""
  (shown, t)

def perform (t : JobTable) : Action → Sys (Told × JobTable)
  | .register group name connector processes =>
    let (id, t) := t.register group name connector processes
    pure (.id id, t)
  | .insert j =>
    match t.insert j with
    | .ok t => pure (.ok, t)
    | .error d => pure (.defect d, t)
  | .remove id =>
    let (j, t) := t.remove id
    pure (.ofJob j, t)
  | .get id => pure (.ofJob (t.get? id), t)
  | .update id index report => pure (t.updateProcess id index report)
  | .markRunning id => pure (t.change id Job.markRunning)
  | .setForeground id value => pure (t.change id fun j ↦ { j with foreground := value })
  | .wait id untraced => t.await id untraced
  | .setCurrent id => pure (.ok, t.setCurrent id)
  | .markNotified id => pure (.ok, t.markNotified id)
  | .removeReported => pure (.ok, t.removeReported)
  | .discardCompleted => pure (.ok, t.discardCompleted)
  | .hangUpAll => do
    t.hangUpAll
    pure (.ok, t)
  | .notify =>
    let (shown, t) := t.notification
    pure (.text shown, t)
  | .reap => do
    match ← t.reap with
    | (.ok changes, t) => pure (.reaped changes, t)
    | (.error f, t) => pure (.failed f, t)
  | .signal id s => do
    let r ← t.signal id s
    pure (.ofUnit r, t)

end JobShell.JobTable
