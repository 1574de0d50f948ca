import JobShell.Program.Sh.Expand

namespace JobShell.Program.Sh

inductive Target
  | file (path : String) (flags : OpenFlags)
  | output (path : String) (overwrites : Bool)
  | copy (fd : Int)
  | closed
  | document (number : Nat)

def copyTarget (text : String) : Work Target := do
  match text.toList with
  | ['-'] => pure .closed
  | [c] => if Decimal.isDigit c then pure (.copy (c.toNat - 48 : Nat)) else refused
  | _ => refused
where
  refused : Work Target := do
    modify fun s ↦ { s with line := s.ahead }
    abort "Syntax error: Bad fd number"

def targetOf (run : Runner) (r : Redirect Word) : Work (Int × Target) := do
  let fd : Int := r.fd
  match r.channel with
  | .input w => return (fd, .file (← expandText run w) { readable := true })
  | .output w overwrites => return (fd, .output (← expandText run w) overwrites)
  | .append w =>
    return (fd, .file (← expandText run w) { writable := true, create := true, append := true })
  | .both w =>
    return (fd, .file (← expandText run w) { readable := true, writable := true, create := true })
  | .copy other => pure (fd, .copy other)
  | .copyNamed w => return (fd, ← copyTarget (← expandText run w))
  | .close => pure (fd, .closed)
  | .document number => pure (fd, .document number)

def openFailure (path : String) (creating : Bool) (e : Errno) : String :=
  let reason :=
    if e = .noEntry || e = .notDirectory then
      if creating then "Directory nonexistent" else "No such file"
    else e.libraryText
  (if creating then "cannot create " else "cannot open ") ++ path ++ ": " ++ reason

def openFile (path : String) (flags : OpenFlags) : Work Int := do
  match ← ask (.«open» path flags 0o666) with
  | .ok fd => pure fd
  | .error e => abort (openFailure path flags.create e)

def openOutput (path : String) (overwrites : Bool) : Work Int := do
  if overwrites || !(← get).isOn "noclobber" then
    openFile path { writable := true, create := true, truncate := true }
  else
    match ← ask (.inspect path) with
    | .error _ => openFile path { writable := true, create := true, exclusive := true }
    | .ok i =>
      if i.kind = .regular then abort (openFailure path true .exists_)
      else
        openFile path { writable := true }

def documentText (run : Runner) (number : Nat) : Work ByteArray := do
  match (← get).documents.find? fun d ↦ d.number == number with
  | none => pure ByteArray.empty
  | some d =>
    if d.expands then return Text.toBytes (← expandDocument run d.word)
    else pure (Text.toBytes (String.ofList (literalText d.word)))

def pipeRoom : Nat := 4096

/-- A descriptor from which a here-document can be read. What a pipe may not hold is written by a
child. -/
def openDocument (run : Runner) (number : Nat) : Work Int := do
  match ← ask .pipe with
  | .error _ => abort "Pipe call failed"
  | .ok (out, into) => do
    let bytes ← documentText run number
    if bytes.size ≤ pipeRoom then
      let _ ← sys (Sys.writeAll into bytes)
    else
      match ← ask .fork with
      | .ok .child => do
        let _ ← ask (.close out)
        let _ ← sys (Sys.writeAll into bytes)
        sys (Sys.exit 0)
      | _ => pure ()
    let _ ← ask (.close into)
    pure out

abbrev Saved := List (Int × Option Int)

def firstCopy : Int := 10

def save (fd : Int) (saved : Saved) : Work Saved := do
  if saved.any (·.1 == fd) then pure saved
  else
    match ← ask (.duplicateAbove fd firstCopy) with
    | .ok copy => do
      let _ ← ask (.setCloseOnExec copy)
      let _ ← ask (.close fd)
      pure ((fd, some copy) :: saved)
    | .error _ => pure ((fd, none) :: saved)

def putBackAll (saved : Saved) : Work Unit :=
  saved.forM fun s ↦ do
    match s.2 with
    | some copy => do
      let _ ← ask (.duplicate copy s.1)
      let _ ← ask (.close copy)
    | none => do
      let _ ← ask (.close s.1)

def forget (saved : Saved) : Work Unit :=
  saved.forM fun s ↦ do
    match s.2 with
    | some copy => do
      let _ ← ask (.close copy)
    | none => pure ()

def moveTo (opened fd : Int) : Work Unit := do
  if opened ≠ fd then
    let _ ← ask (.duplicate opened fd)
    let _ ← ask (.close opened)

/-- Carries out one redirection. With `keeps`, what the descriptor was is saved. -/
def connect (run : Runner) (keeps : Bool) (fd : Int) (t : Target) (saved : Saved) : Work Saved := do
  let place (opened : Int) : Work Saved := do
    let saved ← if !keeps then pure saved
      else if opened = fd then pure (if saved.any (·.1 == fd) then saved else (fd, none) :: saved)
      else save fd saved
    moveTo opened fd
    pure saved
  match t with
  | .file path flags => do place (← openFile path flags)
  | .output path overwrites => do place (← openOutput path overwrites)
  | .document number => do place (← openDocument run number)
  | .copy other =>
    if other = fd then pure saved
    else do
      let before := saved
      let saved ← if keeps then save fd saved else pure saved
      match ← ask (.duplicate other fd) with
      | .ok _ => pure saved
      | .error e => do
        -- What has just been saved is put back before anybody can be told of it.
        if saved.length ≠ before.length then putBackAll (saved.take 1)
        abort (Decimal.text other ++ ": " ++ e.libraryText)
  | .closed => do
    let saved ← if keeps then save fd saved else pure saved
    let _ ← ask (.close fd)
    pure saved

def connectAll (run : Runner) (keeps : Bool) : List (Int × Target) → Saved →
    Work (Except Leave Unit × Saved)
  | [], saved => pure (.ok (), saved)
  | (fd, t) :: rest, saved => do
    match ← attempt (connect run keeps fd t saved) with
    | .ok saved => connectAll run keeps rest saved
    | .error l => pure (.error l, saved)

end JobShell.Program.Sh
