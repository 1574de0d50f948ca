import JobShell.Machine.Run
import JobShell.Machine.Typing
import JobShell.Text.Bytes

namespace JobShell.Machine

/-- What a machine starts from. `files` are put into the working directory; a name that ends in a slash
is a directory. -/
structure Setting where
  files : List (String × ByteArray) := []
  executable : List String := []
  environment : Environment := []
  input : ByteArray := ByteArray.empty
  hasTerminal : Bool := false

def workingPath : Path := ["tmp", "job-shell", "work"]

def workingDirectory : String := workingPath.text

def systemDirectories : List Path :=
  [["bin"], ["dev"], ["dev", "fd"], ["etc"], ["home"], ["lib"], ["opt"], ["proc"], ["proc", "self"],
    ["proc", "self", "fd"], ["root"], ["run"], ["sbin"], ["srv"], ["sys"], ["tmp"],
    ["usr", "bin"], ["usr", "lib"], ["usr", "sbin"], ["usr", "local", "bin"], ["usr", "share"],
    ["var", "tmp"]]

def devices : List (Path × Content) :=
  [(["dev", "null"], .null), (["dev", "zero"], .zero), (["dev", "full"], .full),
    (["dev", "tty"], .terminal)]

def addNode (f : Files) (path : Path) (n : Node) : Files := (f.create path n).2

def addFile (executable : List String) (f : Files) (file : String × ByteArray) : Files :=
  let (name, data) := file
  let path := workingPath ++ ((Text.spell name).splitOn "/").filter (· ≠ "")
  if name.endsWith "/" then f.makeDirectory path
  else
    addNode (f.makeDirectory path.dropLast) path
      ⟨.bytes data, if executable.contains name then 0o755 else 0o644, 0⟩

def systemFiles (programs : List String) (s : Setting) : Files :=
  let f := systemDirectories.foldl Files.makeDirectory {}
  let f := devices.foldl (fun f d ↦ addNode f d.1 ⟨d.2, 0o666, 0⟩) f
  let f := programs.foldl (fun f name ↦
    addNode (addNode f ["usr", "bin", name] ⟨.program name, 0o755, 0⟩) ["bin", name]
      ⟨.program name, 0o755, 0⟩) f
  s.files.foldl (addFile s.executable) (f.makeDirectory workingPath)

def mainPid : Int := 3141000

structure Capture where
  out : Nat
  err : Nat

/-- A machine whose main task has still to get its program. Its output goes to files without names,
at whose ends it is added. Ends of input are typed after the input of a terminal. -/
def boot {α : Type} (programs : List (String × Program)) (s : Setting) (body : Sys α) :
    Machine α × Capture :=
  let files := systemFiles (programs.map (·.1)) s
  let (input, files) := files.createHidden ⟨.bytes s.input, 0o600, 0⟩
  let (out, files) := files.createHidden ⟨.bytes ByteArray.empty, 0o600, 0⟩
  let (err, files) := files.createHidden ⟨.bytes ByteArray.empty, 0o600, 0⟩
  let stdin : OpenFile :=
    if s.hasTerminal then ⟨.terminal, 0, true, true, false⟩ else ⟨.node input, 0, true, false, false⟩
  let main : Task α := {
    pid := mainPid, parent := 1, group := mainPid, body
    descriptors := ⟨[(0, ⟨0, false⟩), (1, ⟨1, false⟩), (2, ⟨2, false⟩)]⟩
    environment := s.environment.map fun v ↦ (Text.spell v.1, Text.spell v.2)
    directory := workingPath, ignored := [.pipe] }
  let ends : List UInt8 := List.replicate 4 4
  ({ main := mainPid, files
     opened := #[stdin, ⟨.node out, 0, false, true, true⟩, ⟨.node err, 0, false, true, true⟩]
     terminal :=
       if s.hasTerminal then some ⟨Typing.pieces (s.input.toList ++ ends), mainPid⟩ else none
     tasks := [main], nextPid := mainPid + 1
     programs := fun name ↦ (programs.find? fun p ↦ p.1 == name).map (·.2) }, ⟨out, err⟩)

variable {α : Type}

def evaluate? (body : Sys α) : Option α :=
  match (boot [] {} body).1.run with
  | (.value a, _) => some a
  | _ => none

def contentOf (m : Machine α) (index : Nat) : ByteArray :=
  match m.files.node? index with
  | some ⟨.bytes data, _, _⟩ => data
  | _ => ByteArray.empty

structure Entry where
  name : String
  mode : Nat
  content : Option ByteArray

def entries (m : Machine α) : List Entry :=
  m.files.names.filterMap fun e ↦
    if workingPath.isPrefixOf e.1 && workingPath.length < e.1.length then
      let name := Text.unspell ("/".intercalate (e.1.drop workingPath.length))
      (m.files.node? e.2).map fun n ↦
        match n.content with
        | .bytes data => ⟨name, n.mode, some data⟩
        | _ => ⟨name ++ "/", n.mode, none⟩
    else none

end JobShell.Machine
