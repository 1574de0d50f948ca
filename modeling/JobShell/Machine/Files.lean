import JobShell.Decimal
import JobShell.Sys.Call

namespace JobShell.Machine

abbrev Path := List String

/-- What a node holds. A program is known by its name. -/
inductive Content
  | bytes (data : ByteArray)
  | directory
  | program (name : String)
  | null
  | zero
  | full
  | terminal

structure Node where
  content : Content
  mode : Nat
  changed : Nat := 0

structure Files where
  nodes : Array Node := #[]
  names : List (Path × Nat) := []

inductive Place
  | node (path : Path) (index : Nat)
  | free (path : Path) (asDirectory : Bool)
  | descriptor (fd : Nat) (rest : List String)

namespace Node

def isDirectory (n : Node) : Bool :=
  match n.content with
  | .directory => true
  | _ => false

def info (n : Node) (index : Nat) : FileInfo :=
  match n.content with
  | .bytes data => ⟨.regular, n.mode, data.size, index, n.changed⟩
  | .program _ => ⟨.regular, n.mode, 1, index, n.changed⟩
  | .directory => ⟨.directory, n.mode, 4096, index, n.changed⟩
  | .null | .zero | .full | .terminal => ⟨.device, n.mode, 0, index, n.changed⟩

def isExecutable (n : Node) : Bool := n.mode &&& 0o111 != 0

end Node

namespace Files

def lookup? (f : Files) (path : Path) : Option Nat :=
  (f.names.find? fun e ↦ e.1 == path).map (·.2)

def node? (f : Files) (index : Nat) : Option Node := f.nodes[index]?

def isDirectory (f : Files) (index : Nat) : Bool :=
  (f.node? index).any Node.isDirectory

def create (f : Files) (path : Path) (n : Node) : Nat × Files :=
  (f.nodes.size, ⟨f.nodes.push n, f.names ++ [(path, f.nodes.size)]⟩)

def createHidden (f : Files) (n : Node) : Nat × Files :=
  (f.nodes.size, { f with nodes := f.nodes.push n })

def unlink (f : Files) (path : Path) : Files :=
  { f with names := f.names.filter fun e ↦ e.1 != path }

def setNode (f : Files) (index : Nat) (n : Node) : Files :=
  { f with nodes := f.nodes.setIfInBounds index n }

def makeDirectory (f : Files) (path : Path) : Files :=
  (List.range (path.length + 1)).foldl (fun f n ↦
    if (f.lookup? (path.take n)).isSome then f
    else (f.create (path.take n) ⟨.directory, 0o755, 0⟩).2) f

def children (f : Files) (path : Path) : List String :=
  f.names.filterMap fun e ↦
    if e.1.length = path.length + 1 ∧ path.isPrefixOf e.1 then e.1.getLast? else none

def descriptorAt? : Path → Option Nat
  | ["dev", "stdin"] => some 0
  | ["dev", "stdout"] => some 1
  | ["dev", "stderr"] => some 2
  | ["dev", "fd", name] | ["proc", "self", "fd", name] =>
    (Decimal.natural? name.toList).filter fun n ↦ Decimal.text n == name
  | _ => none

/-- Follows names from a directory. -/
def walk (f : Files) (here : Path) (index : Nat) : List String → Except Errno Place
  | [] => .ok (.node here index)
  | name :: rest =>
    if !f.isDirectory index then .error .notDirectory
    else if name = "" || name = "." then walk f here index rest
    else if name = ".." then
      match f.lookup? here.dropLast with
      | some up => walk f here.dropLast up rest
      | none => .error .noEntry
    else
      let path := here ++ [name]
      if name.length > 255 then .error .nameTooLong
      else
        match descriptorAt? path, f.lookup? path with
        | some fd, _ => .ok (.descriptor fd rest)
        | none, some i => walk f path i rest
        | none, none =>
          if rest.all (· = "") then .ok (.free path (!rest.isEmpty)) else .error .noEntry

def resolve (f : Files) (here : Path) (path : String) : Except Errno Place :=
  if path.toList.contains '\x00' then .error .invalid
  else if path.isEmpty then .error .noEntry
  else if path.length > 4095 then .error .nameTooLong
  else
    let start : Path := if path.startsWith "/" then [] else here
    match f.lookup? start with
    | some i => walk f start i (path.splitOn "/")
    | none => .error .noEntry

def pathOf? (f : Files) (index : Nat) : Option Path :=
  (f.names.find? fun e ↦ e.2 == index).map (·.1)

def canHold (directory : Path) : Except Errno Unit :=
  match directory with
  | "proc" :: _ => .error .noEntry
  | "sys" :: _ => .error .accessDenied
  | _ => .ok ()

end Files

def Path.text (p : Path) : String := "/" ++ "/".intercalate p

end JobShell.Machine
