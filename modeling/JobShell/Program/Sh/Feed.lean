import JobShell.Program.Sh.State

namespace JobShell.Program.Sh

structure Mode where
  final : Bool := false
  tested : Bool := false

abbrev Runs := Mode → Tree → Work Unit

abbrev RunsText := Mode → String → Work Int

def pieceSize : Nat := 8192

def fetch (fd : Int) (r : Reader) : Work Reader := do
  let bytes := match ← sys (Sys.read fd pieceSize) with
    | .ok bytes => bytes
    | .error _ => ByteArray.empty
  let source := r.source
  if bytes.isEmpty then pure { r with source := { source with isWhole := true } }
  else
    let more := (Text.ofBytes bytes).toList.filter (· ≠ '\x00')
    pure { r with source := { source with rest := source.rest ++ more } }

def linesThrough : Nat → List Char → List Char
  | _, [] => []
  | 0, _ => []
  | n + 1, '\n' :: cs => '\n' :: linesThrough n cs
  | n, c :: cs => c :: linesThrough n cs
termination_by _ cs => cs.length

def showInput (cs : List Char) : Work Unit := do
  if (← get).isOn "verbose" then
    let _ ← sys (Sys.writeAll Sys.stderr (Text.toBytes (String.ofList cs)))

def between (before after : Reader) : List Char :=
  before.source.rest.take (before.source.rest.length - after.source.rest.length)

def complainOf {α : Type} (line : Nat) (text : String) : Work α := do
  setLine line
  abort ("Syntax error: " ++ text)

/-- Reads the next command, fetching at most so many pieces. -/
def nextCommand (fd : Option Int) (prompt : Work Unit) : Nat → Reader → Work (Complete × Reader)
  | 0, _ => sys Sys.hang
  | n + 1, r => do
    let s ← get
    match { r with aliases := s.aliases, serial := s.serial, documents := [] }.next with
    | .error .unfinished => do
      match fd with
      | some fd => do
        if !r.source.rest.isEmpty then prompt
        nextCommand (some fd) prompt n (← fetch fd r)
      | none => nextCommand none prompt n { r with source := { r.source with isWhole := true } }
    | .error (.malformed line text) => do
      if fd.isSome then showInput (linesThrough (line + 1 - r.source.line) r.source.rest)
      complainOf line text
    | .ok (c, after) => do
      if fd.isSome then showInput (between r after)
      modify fun s ↦ { s with
        documents := after.documents ++ s.documents, serial := after.serial, ahead := after.source.line }
      pure (c, after)

def runCommands (run : Runs) (m : Mode) (fd : Option Int) : Nat → Int → Reader → Work Int
  | 0, _, _ => sys Sys.hang
  | n + 1, code, r => do
    match ← nextCommand fd (pure ()) Sys.patience r with
    | (.finished, _) => pure code
    | (.command t last, r) => do
      run { m with final := m.final && last } t
      let code ← match t with
        | .nothing => pure code
        | _ => do pure (← get).status
      runCommands run m fd n code r

def runText (run : Runs) : RunsText := fun m text ↦
  runCommands run m none Sys.patience 0 { source := { rest := text.toList } }

def firstFeed : Int := 10

def moveAway (fd : Int) : Work Int := do
  match ← ask (.duplicateAbove fd firstFeed) with
  | .ok copy => do
    let _ ← ask (.setCloseOnExec copy)
    let _ ← ask (.close fd)
    pure copy
  | .error _ => pure fd

def runFile (run : Runs) (fd : Int) : Work Int := do
  let fd ← moveAway fd
  andThen (runCommands run {} (some fd) Sys.patience 0 { source := { rest := [], isWhole := false } }) do
    let _ ← ask (.close fd)

end JobShell.Program.Sh
