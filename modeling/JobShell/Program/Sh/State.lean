import JobShell.Environment
import JobShell.Program.Basic
import JobShell.Program.Numeral
import JobShell.Program.Sh.Grammar

namespace JobShell.Program.Sh

structure Variable where
  name : String
  value : Option String
  exported : Bool := false
  readOnly : Bool := false
  permanent : Bool := false

structure Child where
  pid : Int
  report : Option WaitReport := none

structure Job where
  number : Nat
  children : List Child
  waited : Bool := false
  changed : Bool := false

def Job.isDone (j : Job) : Bool := j.children.all fun c ↦ c.report.isSome

structure Found where
  name : String
  index : Nat
  stale : Bool := false

inductive Shadow
  | variable_ (name : String) (before : Option Variable)
  | options (before : List String)

structure State where
  name : String
  parameters : List String := []
  vars : List Variable := []
  functions : List (String × Tree) := []
  aliases : List (String × String) := []
  found : List Found := []
  options : List String := []
  status : Int := 0
  lastPid : Option Int := none
  jobs : List Job := []
  traps : List (Nat × String) := []
  noticed : List Nat := []
  settled : List Signal := []
  statusBefore : Option Int := none
  line : Nat := 1
  ahead : Nat := 1
  documents : List Document := []
  serial : Nat := 0
  ownPid : Int := 0
  directory : String := ""
  limits : List (Char × Option Nat × Option Nat) := []
  command : Option String := none
  output : ByteArray := ByteArray.empty
  substituted : Int := 0
  loops : Nat := 0
  calls : Nat := 0
  isRoot : Bool := true
  shadowed : List (List Shadow) := []
  isTracing : Bool := false
  optionWord : Nat := 1
  optionOffset : Option Nat := none

inductive Leave
  | exit (code : Int)
  | misuse
  | leaveLoop (levels : Nat)
  | nextRound (levels : Nat)
  | return_ (code : Option Int)

abbrev Work := ExceptT Leave (StateT State Sys)

def sys {α : Type} (x : Sys α) : Work α := ExceptT.lift (StateT.lift x)

def ask (c : Call) : Work (Reply c) := sys (Sys.ask c)

def attempt {α : Type} (w : Work α) : Work (Except Leave α) := ExceptT.lift w.run

def goOn {α : Type} : Except Leave α → Work α
  | .ok a => pure a
  | .error l => throw l

def andThen {α : Type} (w : Work α) (after : Work Unit) : Work α := do
  let r ← attempt w
  after
  goOn r

def setStatus (code : Int) : Work Unit := modify fun s ↦ { s with status := code }

def setLine (line : Nat) : Work Unit := modify fun s ↦ { s with line }

def say (bytes : ByteArray) : Work Unit := modify fun s ↦ { s with output := s.output ++ bytes }

def sayText (text : String) : Work Unit := say (Text.toBytes text)

def flush : Work Bool := do
  let s ← get
  if s.output.isEmpty then pure true
  else do
    set { s with output := ByteArray.empty }
    match (← sys (Sys.writeAll Sys.stdout s.output)).1 with
    | .ok _ => pure true
    | .error _ => pure false

def tell (text : String) : Work Unit := do
  let s ← get
  let command := match s.command with
    | some name => name ++ ": "
    | none => ""
  sys (complain (s.name ++ ": " ++ Decimal.text s.line ++ ": " ++ command ++ text))

def abort {α : Type} (text : String) : Work α := do
  tell text
  let _ ← flush
  setStatus 2
  throw .misuse

namespace State

def isOn (s : State) (option : String) : Bool := s.options.contains option

def lookup? (s : State) (name : String) : Option Variable := s.vars.find? fun v ↦ v.name == name

def get? (s : State) (name : String) : Option String := (s.lookup? name).bind (·.value)

def change (s : State) (name : String) (f : Variable → Variable) : State :=
  if (s.lookup? name).isSome then
    { s with vars := s.vars.map fun v ↦ if v.name == name then f v else v }
  else { s with vars := s.vars ++ [f { name, value := none }] }

def rowOf (rows : Nat) (name : String) : Nat :=
  let bytes := (Text.toBytes name).toList.map UInt8.toNat
  (16 * bytes.headD 0 + bytes.foldl (· + ·) 0) % 32768 % rows

def environment (s : State) : Environment :=
  (s.vars.mergeSort fun a b ↦ decide (rowOf 39 a.name ≤ rowOf 39 b.name)).filterMap fun v ↦
    if v.exported then v.value.map fun value ↦ (v.name, value) else none

def heed (s : State) (name : String) (value : Option String) : State :=
  if name = "PATH" then { s with found := [] }
  else if name = "OPTIND" then
    let start := (value.bind count?).getD 1
    { s with optionWord := if start = 0 then 1 else start, optionOffset := none }
  else s

def putBack (s : State) (name : String) (v : Option Variable) : State :=
  let s := match v with
    | some v => s.change name fun _ ↦ v
    | none => { s with vars := s.vars.filter (·.name != name) }
  s.heed name (v.bind (·.value))

def separators (s : State) : List Char := ((s.get? "IFS").getD " \t\n").toList

end State

def mustBeWritable (name : String) : Work Unit := do
  if ((← get).lookup? name).any (·.readOnly) then abort (name ++ ": is read only")

structure Marks where
  exported : Bool := false
  readOnly : Bool := false
  permanent : Bool := false

namespace Marks

def on (m : Marks) (v : Variable) : Variable :=
  { v with
    exported := v.exported || m.exported
    readOnly := v.readOnly || m.readOnly
    permanent := v.permanent || m.permanent }

def isEmpty (m : Marks) : Bool := !m.exported && !m.readOnly && !m.permanent

end Marks

def assign (name : String) (value : Option String) (marks : Marks) : Work Unit := do
  mustBeWritable name
  if name = "OPTIND" then
    let text := value.getD ""
    if (count? text).isNone then abort ("Illegal number: " ++ text)
  modify fun s ↦
    let marks := { marks with exported := marks.exported || s.isOn "allexport" }
    let isGone := value.isNone && marks.isEmpty && !(s.lookup? name).any (·.permanent)
    let s := if isGone then { s with vars := s.vars.filter (·.name != name) }
      else s.change name fun v ↦ { marks.on v with value }
    s.heed name value

def mustBeName (name : String) : Work Unit := do
  if !isName name then abort (name ++ ": bad variable name")

def setVariable (name value : String) : Work Unit := do
  mustBeName name
  assign name (some value) {}

def unsetVariable (name : String) : Work Unit := do
  mustBeName name
  assign name none {}

end JobShell.Program.Sh
