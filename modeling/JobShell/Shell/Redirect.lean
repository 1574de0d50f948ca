import JobShell.Command.Redirection
import JobShell.Sys.Stream
import JobShell.Text.Bytes

namespace JobShell.Redirect

def temporaryDirectory : Sys String := do
  let e ← Sys.ask .environment
  pure ((e.get? "TMPDIR").getD "/tmp")

def joinPath (directory name : String) : String :=
  if directory.isEmpty || directory.endsWith "/" then directory ++ name
  else directory ++ "/" ++ name

def orClose (fd : Int) (x : Sys (Except Failure Unit)) : Sys (Except Failure Int) := do
  match ← x with
  | .ok _ => pure (.ok fd)
  | .error f => Sys.drop fd; pure (.error f)

def ofCall : Except Errno Unit → Except Failure Unit
  | .ok _ => .ok ()
  | .error e => .error (.system e)

/-- Fills a temporary file, which is known by its descriptor alone. -/
def fillFile (fd : Int) (path document : String) : ExceptT Failure Sys Unit := do
  ExceptT.mk (ofCall <$> Sys.ask (.unlink path))
  ExceptT.mk (ofCall <$> Sys.ask (.setCloseOnExec fd))
  match (← Sys.writeAll fd document.toUTF8).1 with
  | .ok _ => pure ()
  | .error e => throw (.stream (.system e))
  match ← Sys.ask (.seek fd .start) with
  | .ok _ => pure ()
  | .error e => throw (.stream (.system e))

def openDocument (document : String) : Sys (Except Failure Int) := do
  let directory ← temporaryDirectory
  match ← Sys.ask (.temporary (joinPath directory "psh-heredoc-XXXXXX")) with
  | .error e => pure (.error (.system e))
  | .ok (fd, path) => orClose fd (fillFile fd path document).run

abbrev Prepared := List (Redirection × Option Int)

def release (p : Prepared) : Sys Unit :=
  p.forM fun r ↦ match r.2 with
    | some fd => Sys.drop fd
    | none => pure ()

/-- Opens the here-documents in order. If one cannot be opened, those before it are closed. -/
def prepareFrom (opened : Prepared) : List Redirection → Sys (Except Failure Prepared)
  | [] => pure (.ok opened)
  | r :: rs =>
    match r.document? with
    | none => prepareFrom (opened ++ [(r, none)]) rs
    | some document => do
      match ← openDocument document with
      | .ok fd => prepareFrom (opened ++ [(r, some fd)]) rs
      | .error f => release opened; pure (.error f)

def prepare (rs : List Redirection) : Sys (Except Failure Prepared) := prepareFrom [] rs

def flagsOf : OpenMode → OpenFlags
  | .truncate => { writable := true, create := true, truncate := true }
  | .append => { writable := true, create := true, append := true }
  | .read => { readable := true, create := true }
  | .readWrite => { readable := true, writable := true, create := true }

def blame (what : String) : Except Errno Unit → Except Failure Unit
  | .ok _ => .ok ()
  | .error e => .error (.redirectionFailed what e)

/-- Applies one redirection. -/
def applyOne : Redirection × Option Int → Sys (Except Failure Unit)
  | (.duplicate source target _, _) =>
    if target = source then pure (.ok ())
    else return blame (Decimal.text target) (← Sys.ask (.duplicate target source))
  | (.close source _, _) => do
    match ← Sys.ask (.close source) with
    | .ok _ => pure (.ok ())
    | .error e =>
      if e = .badDescriptor then pure (.ok ())
      else pure (.error (.redirectionFailed (Decimal.text source) e))
  | (.document source _, some fd) =>
    return blame (Decimal.text source) (← Sys.ask (.duplicate fd source))
  | (.document _ _, none) => pure (.error (.plain "here-document was not prepared"))
  | (.path mode source path, _) => do
    match ← Sys.ask (.«open» (Text.spell path) (flagsOf mode) 0o644) with
    | .error e => pure (.error (.redirectionFailed path e))
    | .ok fd =>
      if fd = source then pure (.ok ())
      else do
        let r ← Sys.ask (.duplicate fd source)
        Sys.drop fd
        pure (blame path r)

def apply : Prepared → Sys (Except Failure Unit)
  | [] => pure (.ok ())
  | r :: rs => do
    match ← applyOne r with
    | .ok _ => apply rs
    | .error f => pure (.error f)

abbrev Saved := List (Int × Option Int)

def savedFrom : Int := 10

/-- Puts descriptors back, the last saved first. -/
def restore (saved : Saved) : Sys Unit :=
  saved.reverse.forM fun s ↦ match s.2 with
    | some copy => do
      match ← Sys.ask (.duplicate copy s.1) with
      | .ok _ => pure ()
      | .error e =>
        Sys.ask (.log .error "psh::shell::redirect"
          ("failed to restore descriptor " ++ Decimal.text s.1 ++ ": " ++ (Failure.system e).message))
      Sys.drop copy
    | none => Sys.drop s.1

/-- Saves the descriptors that the redirections change, each once. Also gives what was saved when one
cannot be. -/
def saveFrom (saved : Saved) : List Redirection → Sys (Except Failure Unit × Saved)
  | [] => pure (.ok (), saved)
  | r :: rs =>
    if saved.any fun s ↦ s.1 == r.source then saveFrom saved rs
    else do
      match ← Sys.ask (.duplicateAbove r.source savedFrom) with
      | .ok copy => saveFrom (saved ++ [(r.source, some copy)]) rs
      | .error e =>
        if e = .badDescriptor then saveFrom (saved ++ [(r.source, none)]) rs
        else pure (.error (.system e), saved)

def save (rs : List Redirection) : Sys (Except Failure Unit × Saved) := saveFrom [] rs

end JobShell.Redirect
