import JobShell.Machine.Basic

namespace JobShell.Machine

variable {α : Type}

inductive Target
  | file (channel : Channel) (path : Option Path)
  | free (path : Path) (asDirectory : Bool)

/-- The file that a task has under a descriptor, and where names from there lead. -/
def followDescriptor (m : Machine α) (t : Task α) (fd : Nat) (rest : List String) :
    Except Errno Target := do
  let (_, f) ← (m.fileOf t fd).mapError fun _ ↦ .noEntry
  match f.channel, rest with
  | .node n, [] => .ok (.file f.channel (m.files.pathOf? n))
  | .node n, _ =>
    match ← m.files.walk ((m.files.pathOf? n).getD []) n rest with
    | .node path n => .ok (.file (.node n) (some path))
    | .free path asDirectory => .ok (.free path asDirectory)
    | .descriptor _ _ => .error .loop
  | _, [] => .ok (.file f.channel none)
  | _, _ => .error .notDirectory

def locate (m : Machine α) (t : Task α) (path : String) : Except Errno Target := do
  match ← m.files.resolve t.directory path with
  | .node path n => .ok (.file (.node n) (some path))
  | .free path asDirectory => .ok (.free path asDirectory)
  | .descriptor fd rest => m.followDescriptor t fd rest

def find (m : Machine α) (t : Task α) (path : String) : Except Errno (Channel × Option Path) := do
  match ← m.locate t path with
  | .file channel path => .ok (channel, path)
  | .free _ _ => .error .noEntry

def findDirectory (m : Machine α) (t : Task α) (path : String) : Except Errno Path := do
  match ← m.find t path with
  | (.node n, some p) => if m.files.isDirectory n then .ok p else .error .notDirectory
  | _ => .error .notDirectory

def infoOf (m : Machine α) : Channel → Except Errno FileInfo
  | .node n =>
    match m.files.node? n with
    | some node => .ok (node.info n)
    | none => .error .badDescriptor
  | .pipe n => .ok ⟨.pipe, 0o600, 0, m.files.nodes.size + 1 + n, 0⟩
  | .terminal => .ok ⟨.device, 0o620, 0, m.files.nodes.size, 0⟩

def directoryOfSlashed? (path : String) : Option String :=
  let names := path.toList.reverse
  let name := (names.dropWhile (· = '/')).takeWhile (· ≠ '/')
  if !path.endsWith "/" || name = [] || name = ['.'] || name = ['.', '.'] then none
  else some (String.ofList (((names.dropWhile (· = '/')).dropWhile (· ≠ '/')).reverse ++ ['.']))

/-- What is at the end of a path that the task may open, made if need be. -/
def openChannel (m : Machine α) (t : Task α) (path : String) (flags : OpenFlags) (mode : Nat) :
    Except Errno (Channel × Machine α) := do
  match if flags.create then directoryOfSlashed? path else none with
  | some directory =>
    match ← m.findDirectory t directory with
    | _ => .error .isDirectory
  | none =>
    match ← m.locate t path with
    | .free p _ =>
      if !flags.create then .error .noEntry
      else
        match Files.canHold p with
        | .error e => .error e
        | .ok _ =>
          let node : Node := ⟨.bytes ByteArray.empty, mode &&& (0o777 ^^^ t.mask), m.now⟩
          let (n, files) := m.files.create p node
          .ok (.node n, { m with files })
    | .file (.node n) _ =>
      if flags.create && flags.exclusive then .error .exists_
      else
        match m.files.node? n with
        | none => .error .noEntry
        | some node =>
          match node.content with
          | .directory =>
            if flags.create || flags.writable then .error .isDirectory else .ok (.node n, m)
          | .terminal => if m.terminal.isSome then .ok (.terminal, m) else .error (⟨6⟩ : Errno)
          | .bytes _ =>
            if flags.truncate && flags.writable then
              let node := { node with content := .bytes .empty, changed := m.now }
              .ok (.node n, { m with files := m.files.setNode n node })
            else .ok (.node n, m)
          | _ => .ok (.node n, m)
    | .file channel _ =>
      if flags.create && flags.exclusive then .error .exists_ else .ok (channel, m)

end JobShell.Machine
