import JobShell.Machine.Basic

namespace JobShell.Machine

variable {α : Type}

def tellParent (m : Machine α) (parent : Int) : Machine α :=
  m.modify parent fun t ↦
    if t.noticing.contains .chld && !t.noticed.contains .chld then
      { t with noticed := .chld :: t.noticed }
    else t

def hasParent (m : Machine α) (t : Task α) : Bool :=
  (m.task? t.parent).any Task.isLive

def orphan (m : Machine α) (parent : Int) : Machine α :=
  { m with tasks := m.tasks.filterMap fun t ↦
      if t.parent = parent then
        if t.isLive then some { t with parent := 1 } else none
      else some t }

/-- Ends a task. Its report waits for its parent. -/
def die (m : Machine α) (pid : Int) (report : WaitReport) : Machine α :=
  match m.task? pid with
  | none => m
  | some t =>
    if !t.isLive then m
    else
      let m := m.modify pid fun t ↦
        { t with ended := some report, descriptors := {}, deadline := none, stopped := false }
      let m := m.orphan pid
      if pid = m.main || m.hasParent t then m.tellParent t.parent else m.removeTask pid

def stopTask (m : Machine α) (pid : Int) (s : Signal) : Machine α :=
  match m.task? pid with
  | none => m
  | some t =>
    let m := m.modify pid fun t ↦
      { t with stopped := true, news := some (.stopped s), pending := t.pending.filter (· != .cont) }
    m.tellParent t.parent

def isOrphaned (m : Machine α) (group : Int) : Bool :=
  (m.members group).all fun t ↦
    !t.isLive || match m.task? t.parent with
      | some p => p.group == group || !p.isLive
      | none => true

/-- What a signal does to a running task. -/
def act (m : Machine α) (t : Task α) (s : Signal) : Machine α :=
  if t.ignored.contains s then m
  else if t.noticing.contains s then
    m.modify t.pid fun t ↦
      if t.noticed.contains s then t else { t with noticed := s :: t.noticed }
  else
    match s.defaultAction with
    | .terminate => m.die t.pid (.killed s false)
    | .discard | .resume => m
    | .stop => if m.isOrphaned t.group then m else m.stopTask t.pid s

def actAll (m : Machine α) (pid : Int) (signals : List Signal) : Machine α :=
  (Signal.all.filter signals.contains).foldl (fun m s ↦
    match m.task? pid with
    | some t => if t.isLive then m.act t s else m
    | none => m) m

def meetDoom (m : Machine α) (pid : Int) : Machine α :=
  match m.task? pid >>= Task.doomed with
  | some number => m.die pid (.killedRealTime number)
  | none => m

def continueTask (m : Machine α) (t : Task α) : Machine α :=
  let signals := t.pending.filter fun s ↦ s.defaultAction != .stop
  if t.stopped then
    let m := m.modify t.pid fun t ↦
      { t with stopped := false, news := some .continued, pending := [] }
    ((m.tellParent t.parent).actAll t.pid (.cont :: signals)).meetDoom t.pid
  else m.actAll t.pid [.cont]

/-- Sends one signal to one task. Ended tasks take no notice, stopped ones wait until they go on. -/
def deliver (m : Machine α) (pid : Int) (s : Signal) : Machine α :=
  match m.task? pid with
  | none => m
  | some t =>
    if !t.isLive then m
    else if s = .kill then m.die pid (.killed .kill false)
    else if s = .cont then m.continueTask t
    else if s = .stop then
      if t.stopped then m else m.stopTask pid .stop
    else if t.stopped then
      m.modify pid fun t ↦
        if t.pending.contains s then t else { t with pending := s :: t.pending }
    else m.act t s

def deliverRealTime (m : Machine α) (pid : Int) (number : Nat) : Machine α :=
  match m.task? pid with
  | none => m
  | some t =>
    if t.isLive && t.stopped then
      m.modify pid fun t ↦ { t with doomed := some (min number (t.doomed.getD number)) }
    else m.die pid (.killedRealTime number)

def targets (m : Machine α) (self : Task α) (pid : Int) : List (Task α) :=
  if pid > 0 then (m.task? pid).toList
  else if pid = 0 then m.members self.group
  else if pid = -1 then m.tasks.filter fun t ↦ t.pid != self.pid
  else m.members (-pid)

def send (m : Machine α) (self : Task α) (pid : Int) (deliver : Machine α → Int → Machine α) :
    Except Errno (Machine α) :=
  let tasks := m.targets self pid
  if tasks.isEmpty && pid != 1 && pid != -1 then .error .noProcess
  else .ok (tasks.foldl (fun m t ↦ deliver m t.pid) m)

def kill (m : Machine α) (self : Task α) (pid : Int) (s : Option Signal) : Except Errno (Machine α) :=
  match s with
  | none => m.send self pid fun m _ ↦ m
  | some s => m.send self pid fun m pid ↦ m.deliver pid s

def killRealTime (m : Machine α) (self : Task α) (pid : Int) (number : Nat) :
    Except Errno (Machine α) :=
  m.send self pid fun m pid ↦ m.deliverRealTime pid number

def isReady (flags : WaitFlags) (t : Task α) : Option WaitReport :=
  match t.ended with
  | some report => some report
  | none =>
    match t.news with
    | some (.stopped s) => if flags.untraced then some (.stopped s) else none
    | some .continued => if flags.continued then some .continued else none
    | _ => none

def reported (flags : WaitFlags) (pid : Int) (report : WaitReport) :
    Except Errno (Int × WaitReport) :=
  match report with
  | .killedRealTime _ => if flags.realTime then .ok (pid, report) else .error .invalid
  | _ => .ok (pid, report)

def awaited (m : Machine α) (self : Task α) (pid : Int) : List (Task α) :=
  m.tasks.filter fun t ↦ t.parent == self.pid &&
    (if pid > 0 then t.pid == pid
      else if pid = -1 then true
      else if pid = 0 then t.group == self.group
      else t.group == -pid)

def collect (m : Machine α) (self : Task α) (pid : Int) (flags : WaitFlags) :
    Except Errno (Option (Int × WaitReport × Machine α)) :=
  let children := m.awaited self pid
  if children.isEmpty then .error .noChild
  else
    .ok <| children.findSome? fun t ↦ (isReady flags t).map fun report ↦
      (t.pid, report,
        if t.isLive then m.modify t.pid (fun t ↦ { t with news := none }) else m.removeTask t.pid)

end JobShell.Machine
