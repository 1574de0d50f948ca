import JobShell.Machine.Interpreter
import JobShell.Machine.Transfer

namespace JobShell.Machine

variable {α : Type}

inductive Answered (α : Type) (c : Call) where
  | reply (r : Reply c) (m : Machine α)
  | wait (m : Machine α)
  | over (m : Machine α)

def Outcome.answered {c : Call} : Outcome α (Reply c) → Answered α c
  | .reply r m => .reply r m
  | .wait m => .wait m
  | .retry m => .over m

def number (fd : Int) : Except Errno Nat := if fd < 0 then .error .badDescriptor else .ok fd.toNat

def withDescriptors (m : Machine α) (t : Task α) (d : Except Errno Descriptors) :
    Except Errno Unit × Machine α :=
  match d with
  | .ok d => (.ok (), m.setDescriptors t.pid d)
  | .error e => (.error e, m)

def split {β : Type} (m : Machine α) : Except Errno (β × Machine α) → Except Errno β × Machine α
  | .ok (b, m) => (.ok b, m)
  | .error e => (.error e, m)

def scriptDepth : Nat := 6

/-- The program to run for a path and the words it gets. A script is run by its interpreter, which may
be a script again, up to a limit. -/
def program (m : Machine α) (t : Task α) : Nat → String → List String →
    Except Errno (Program × List String)
  | n, path, words =>
    match m.find t path with
    | .ok (.node i, _) =>
      match m.files.node? i with
      | none => .error .noEntry
      | some node =>
        if !node.isExecutable then .error .accessDenied
        else
          match node.content, n with
          | .program name, _ + 1 =>
            match m.programs name with
            | some p => .ok (p, words)
            | none => .error .execFormat
          | .bytes data, n + 1 =>
            match Interpreter.ofScript? data with
            | some (name, argument) =>
              m.program t n name (name :: argument.toList ++ path :: words.tail)
            | none => .error .execFormat
          | .program _, 0 | .bytes _, 0 => .error .loop
          | _, _ => .error .accessDenied
    | .ok _ => .error .accessDenied
    | .error e => .error e

def execute (m : Machine α) (t : Task α) (path : String) (words : List String)
    (environment : Environment) : Except Errno (Machine α) := do
  let (p, words) ← m.program t scriptDepth path words
  .ok (m.modify t.pid fun t ↦ { t with
    body := p words >>= Sys.exit
    descriptors := t.descriptors.inherited
    environment, noticing := [], noticed := [], log := none, executed := true })

def setGroup (m : Machine α) (t : Task α) (pid group : Int) : Except Errno (Machine α) :=
  let pid := if pid = 0 then t.pid else pid
  let group := if group = 0 then pid else group
  match m.task? pid with
  | none => .error .noProcess
  | some u =>
    if u.pid ≠ t.pid && u.parent ≠ t.pid then .error .noProcess
    else if u.pid = m.main then (if u.group = group then .ok m else .error .perm)
    else if u.pid ≠ t.pid && u.executed then .error .accessDenied
    else if group ≠ pid && (m.members group).isEmpty then .error .perm
    else .ok (m.modify pid fun u ↦ { u with group })

/-- Gives the terminal to a group. A task of a background group that asks is stopped first, unless it
ignores that. -/
def giveTerminal (m : Machine α) (t : Task α) (fd group : Int) : Outcome α (Except Errno Unit) :=
  match m.fileOf t fd with
  | .error e => .reply (.error e) m
  | .ok (_, f) =>
    match f.channel, m.terminal with
    | .terminal, some terminal =>
      if t.group ≠ terminal.foreground && !t.ignored.contains .ttou then
        if m.isOrphaned t.group then .reply (.error .inputOutput) m
        else .retry ((m.members t.group).foldl (fun m u ↦ m.deliver u.pid .ttou) m)
      else if (m.members group).isEmpty then .reply (.error .perm) m
      else .reply (.ok ()) { m with terminal := some { terminal with foreground := group } }
    | _, _ => .reply (.error .notTerminal) m

def levelRank : LogLevel → Nat
  | .off => 0
  | .error => 1
  | .warn => 2
  | .info => 3
  | .debug => 4
  | .trace => 5

def levelName : LogLevel → String
  | .off => "OFF"
  | .error => "ERROR"
  | .warn => "WARN"
  | .info => "INFO"
  | .debug => "DEBUG"
  | .trace => "TRACE"

def startLog (m : Machine α) (t : Task α) (path : String) (level : LogLevel) :
    Except Errno (Unit × Machine α) := do
  let (fd, m) ← m.openPath t path
    { writable := true, create := true, append := true, closeOnExec := true } 0o666
  .ok ((), m.modify t.pid fun t ↦ { t with log := some ⟨fd, level, t.pid⟩ })

def writeLog (m : Machine α) (t : Task α) (level : LogLevel) (target text : String) : Machine α :=
  match t.log with
  | none => m
  | some l =>
    if levelRank l.level < levelRank level then m
    else
      let line := Decimal.text l.pid ++ " [" ++ levelName level ++ "] " ++ target ++ ": " ++ text ++ "\n"
      match m.fileOf t l.fd with
      | .error _ => m
      | .ok (index, f) =>
        if f.writable then
          match m.writeTo t index f line.toUTF8 with
          | .reply _ m => m
          | .wait m | .retry m => m
        else m

def dispositionOf (t : Task α) (s : Signal) : Disposition → Task α
  | .default =>
    { t with ignored := t.ignored.filter (· != s), noticing := t.noticing.filter (· != s) }
  | .ignore =>
    { t with ignored := s :: t.ignored.filter (· != s), noticing := t.noticing.filter (· != s) }
  | .notice =>
    { t with ignored := t.ignored.filter (· != s), noticing := s :: t.noticing.filter (· != s) }

def changeDirectory (m : Machine α) (t : Task α) (path : String) : Except Errno (Unit × Machine α) := do
  let directory ← m.findDirectory t path
  .ok ((), m.modify t.pid fun t ↦ { t with directory })

def unlink (m : Machine α) (t : Task α) (path : String) : Except Errno (Unit × Machine α) := do
  match ← m.files.resolve t.directory path with
  | .free _ _ => .error .noEntry
  | .descriptor _ _ => .error .perm
  | .node p i =>
    if m.files.isDirectory i then .error .isDirectory
    else .ok ((), { m with files := m.files.unlink p })

def seek (m : Machine α) (t : Task α) (fd : Int) (place : Seek) : Except Errno (Unit × Machine α) := do
  let (index, f) ← m.fileOf t fd
  match f.channel with
  | .node n =>
    let size := match m.files.node? n with
      | some ⟨.bytes data, _, _⟩ => data.size
      | _ => 0
    let position := match place with
      | .start => 0
      | .back count => f.position - count
      | .«end» => size
    .ok ((), m.setPosition index position)
  | _ => .error .illegalSeek

def inspectOpen (m : Machine α) (t : Task α) (fd : Int) : Except Errno FileInfo := do
  let (_, f) ← m.fileOf t fd
  m.infoOf f.channel

def setMode (m : Machine α) (t : Task α) (fd : Int) (mode : Nat) : Except Errno (Unit × Machine α) := do
  let (_, f) ← m.fileOf t fd
  match f.channel with
  | .node n =>
    match m.files.node? n with
    | some node => .ok ((), { m with files := m.files.setNode n { node with mode } })
    | none => .ok ((), m)
  | _ => .ok ((), m)

def isTerminal (m : Machine α) (t : Task α) (fd : Int) : Bool :=
  match m.fileOf t fd with
  | .ok (_, f) => decide (f.channel = .terminal)
  | .error _ => false

def awaitChild (m : Machine α) (t : Task α) (pid : Int) (flags : WaitFlags) :
    Outcome α (Except Errno (Int × WaitReport)) :=
  match m.collect t pid flags with
  | .error e => .reply (.error e) m
  | .ok (some (p, report, m)) => .reply (reported flags p report) m
  | .ok none =>
    if flags.noHang then .reply (.ok (0, .stillAlive)) m
    else if flags.interruptible && t.noticed.any (· != .chld) then .reply (.error .interrupted) m
    else .wait m

def watchChild (m : Machine α) (t : Task α) (pid : Int) (untilStopped : Bool) : Outcome α Unit :=
  match m.awaited t pid with
  | [] => .reply () m
  | u :: _ => if !u.isLive || (untilStopped && u.stopped) then .reply () m else .wait m

/-- The answer to any call but `fork`, which concerns two tasks. -/
def answer (m : Machine α) (t : Task α) : (c : Call) → Answered α c
  | .«open» path flags mode =>
    let (r, m) := m.split (m.openPath t path flags mode)
    .reply (r.map Int.ofNat) m
  | .close fd =>
    let (r, m) := m.withDescriptors t (number fd >>= t.descriptors.close)
    .reply r m
  | .duplicate fd target =>
    let (r, m) := m.withDescriptors t do t.descriptors.duplicate (← number fd) (← number target)
    .reply r m
  | .duplicateAbove fd low =>
    match do t.descriptors.duplicateAbove (← number fd) (← number low) with
    | .error e => .reply (.error e) m
    | .ok (copy, d) => .reply (.ok copy) (m.setDescriptors t.pid d)
  | .setCloseOnExec fd =>
    let (r, m) := m.withDescriptors t (number fd >>= t.descriptors.setCloseOnExec)
    .reply r m
  | .pipe =>
    let (r, m) := m.split (m.makePipe t)
    .reply (r.map fun ends ↦ (Int.ofNat ends.1, Int.ofNat ends.2)) m
  | .read fd count =>
    match m.fileOf t fd with
    | .error e => .reply (.error e) m
    | .ok (index, f) =>
      if f.readable then (m.readFrom t index f count).answered
      else .reply (.error .badDescriptor) m
  | .write fd bytes =>
    match m.fileOf t fd with
    | .error e => .reply (.error e) m
    | .ok (index, f) =>
      if f.writable then (m.writeTo t index f bytes).answered
      else .reply (.error .badDescriptor) m
  | .seek fd place =>
    let (r, m) := m.split (m.seek t fd place)
    .reply r m
  | .temporary template =>
    let (r, m) := m.split (m.makeTemporary t template)
    .reply (r.map fun made ↦ (Int.ofNat made.1, made.2)) m
  | .unlink path =>
    let (r, m) := m.split (m.unlink t path)
    .reply r m
  | .setMode fd mode =>
    let (r, m) := m.split (m.setMode t fd mode)
    .reply r m
  | .setMask mask => .reply t.mask (m.modify t.pid fun t ↦ { t with mask })
  | .inspect path => .reply (do m.infoOf (← m.find t path).1) m
  | .inspectOpen fd => .reply (m.inspectOpen t fd) m
  | .listDirectory path =>
    .reply ((m.findDirectory t path).map m.files.children) m
  | .fork => .wait m
  | .exec path words environment =>
    match m.execute t path words environment with
    | .ok m => .over m
    | .error e => .reply e m
  | .exit code => .over (m.die t.pid (.exited (code % 256)))
  | .wait pid flags => (m.awaitChild t pid flags).answered
  | .watch pid untilStopped => (m.watchChild t pid untilStopped).answered
  | .kill pid s =>
    match m.kill t pid s with
    | .ok m => .reply (.ok ()) m
    | .error e => .reply (.error e) m
  | .killRealTime pid number =>
    match m.killRealTime t pid number with
    | .ok m => .reply (.ok ()) m
    | .error e => .reply (.error e) m
  | .ownPid => .reply t.pid m
  | .parentPid => .reply t.parent m
  | .ownGroup => .reply t.group m
  | .setGroup pid group =>
    match m.setGroup t pid group with
    | .ok m => .reply (.ok ()) m
    | .error e => .reply (.error e) m
  | .isTerminal fd => .reply (m.isTerminal t fd) m
  | .terminalGroup fd =>
    .reply (match m.isTerminal t fd, m.terminal with
      | true, some terminal => .ok terminal.foreground
      | _, _ => .error .notTerminal) m
  | .setTerminalGroup fd group => (m.giveTerminal t fd group).answered
  | .disposition s =>
    .reply (if t.ignored.contains s then .ignore else if t.noticing.contains s then .notice else .default) m
  | .setDisposition s d => .reply (.ok ()) (m.modify t.pid fun t ↦ dispositionOf t s d)
  | .takeNotice s =>
    .reply (t.noticed.contains s)
      (m.modify t.pid fun t ↦ { t with noticed := t.noticed.filter (· != s) })
  | .sleep milliseconds =>
    match t.deadline with
    | none => .wait (m.modify t.pid fun t ↦ { t with deadline := some (m.clock + milliseconds) })
    | some d =>
      if d ≤ m.clock then .reply () (m.modify t.pid fun t ↦ { t with deadline := none }) else .wait m
  | .workingDirectory => .reply (.ok t.directory.text) m
  | .changeDirectory path =>
    let (r, m) := m.split (m.changeDirectory t path)
    .reply r m
  | .environment => .reply t.environment m
  | .setVariable name value =>
    .reply () (m.modify t.pid fun t ↦ { t with environment := t.environment.set name value })
  | .openLog path level =>
    let (r, m) := m.split (m.startLog t path level)
    .reply r m
  | .log level target text => .reply () (m.writeLog t level target text)
  | .hang => .wait m

end JobShell.Machine
