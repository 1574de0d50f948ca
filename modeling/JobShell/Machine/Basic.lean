import JobShell.Descriptors
import JobShell.Machine.Files
import JobShell.Sys.Basic

namespace JobShell.Machine

/-- Where the bytes of an open file go and come from. -/
inductive Channel
  | node (index : Nat)
  | pipe (index : Nat)
  | terminal
  deriving DecidableEq

/-- A file opened once; all its descriptors share the position. -/
structure OpenFile where
  channel : Channel
  position : Nat := 0
  readable : Bool
  writable : Bool
  append : Bool := false

structure Terminal where
  typed : List ByteArray := []
  foreground : Int

structure LogTarget where
  fd : Nat
  level : LogLevel
  pid : Int

/-- A process of the machine. `news` is a stop or a continuation that nobody has waited for yet,
`ended` the report of a task that is gone. A stopped task that is `doomed` ends by this real-time signal
when it goes on. -/
structure Task (α : Type) where
  pid : Int
  parent : Int
  group : Int
  body : Sys α
  descriptors : Descriptors
  environment : Environment
  directory : Path
  mask : Nat := 0
  ignored : List Signal := []
  noticing : List Signal := []
  noticed : List Signal := []
  pending : List Signal := []
  doomed : Option Nat := none
  stopped : Bool := false
  news : Option WaitReport := none
  ended : Option WaitReport := none
  deadline : Option Nat := none
  log : Option LogTarget := none
  executed : Bool := false

abbrev Program := List String → Sys Int

end Machine

/-- A machine. The task `main` has a result in `α`; the machine is of use while it lives. -/
structure Machine (α : Type) where
  main : Int
  files : Machine.Files
  opened : Array Machine.OpenFile := #[]
  pipes : Array ByteArray := #[]
  terminal : Option Machine.Terminal := none
  tasks : List (Machine.Task α) := []
  nextPid : Int
  clock : Nat := 0
  serial : Nat := 0
  programs : String → Option Machine.Program

namespace Machine

variable {α : Type}

def now (m : Machine α) : Nat := m.clock + 1

def Task.isLive (t : Task α) : Bool := t.ended.isNone

def task? (m : Machine α) (pid : Int) : Option (Task α) := m.tasks.find? fun t ↦ t.pid == pid

def modify (m : Machine α) (pid : Int) (f : Task α → Task α) : Machine α :=
  { m with tasks := m.tasks.map fun t ↦ if t.pid = pid then f t else t }

def removeTask (m : Machine α) (pid : Int) : Machine α :=
  { m with tasks := m.tasks.filter fun t ↦ t.pid != pid }

def members (m : Machine α) (group : Int) : List (Task α) :=
  m.tasks.filter fun t ↦ t.group == group

def openFile? (m : Machine α) (index : Nat) : Option OpenFile := m.opened[index]?

def addOpenFile (m : Machine α) (f : OpenFile) : Nat × Machine α :=
  (m.opened.size, { m with opened := m.opened.push f })

def setPosition (m : Machine α) (index position : Nat) : Machine α :=
  { m with opened := m.opened.modify index fun f ↦ { f with position := position } }

def fileOf (m : Machine α) (t : Task α) (fd : Int) : Except Errno (Nat × OpenFile) :=
  if fd < 0 then .error .badDescriptor
  else
    match t.descriptors.get? fd.toNat with
    | none => .error .badDescriptor
    | some d =>
      match m.openFile? d.file with
      | some f => .ok (d.file, f)
      | none => .error .badDescriptor

def holdsEnd (m : Machine α) (pipe : Nat) (isEnd : OpenFile → Bool) : Bool :=
  m.tasks.any fun t ↦ t.isLive && t.descriptors.entries.any fun e ↦
    match m.openFile? e.2.file with
    | some f => f.channel = .pipe pipe && isEnd f
    | none => false

def setDescriptors (m : Machine α) (pid : Int) (d : Descriptors) : Machine α :=
  m.modify pid fun t ↦ { t with descriptors := d }

end Machine

end JobShell
