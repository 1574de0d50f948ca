import JobShell.Script.Lines
import JobShell.Sys.Stream

namespace JobShell.Script

/-- A source of lines. `ahead` are bytes that were read but not used yet. -/
structure Source where
  feed : Option (Int × Nat) := none
  ahead : List UInt8 := []
  number : Nat := 0

namespace Source

def ofText (text : String) : Source := { ahead := text.toUTF8.toList }

def fileCapacity : Nat := 8192

def ofFile (fd : Int) : Source := { feed := some (fd, fileCapacity) }

def ofStdin : Source := { feed := some (Sys.stdin, 1) }

def endsLine (piece : List UInt8) : Bool := piece.getLast? == some newline

/-- Reads up to the end of a line or of the input, asking at most so many times. `piece` is what the
line holds so far. -/
def readPiece (feed : Int × Nat) : Nat → List UInt8 → List UInt8 →
    Sys (Except Errno (List UInt8) × List UInt8)
  | 0, _, _ => Sys.hang
  | n + 1, piece, ahead =>
    let (front, rest) := cutLine ahead
    let piece := piece ++ front
    if endsLine front then pure (.ok piece, rest)
    else do
      match ← Sys.read feed.1 feed.2 with
      | .error e => pure (.error e, [])
      | .ok bytes =>
        if bytes.isEmpty then pure (.ok piece, []) else readPiece feed n piece bytes.toList

/-- The bytes of the next line, none at the end. -/
def nextPiece (s : Source) : Sys (Except Errno (List UInt8) × Source) :=
  match s.feed with
  | none =>
    let (piece, rest) := cutLine s.ahead
    pure (.ok piece, { s with ahead := rest })
  | some feed => do
    let (r, rest) ← readPiece feed Sys.patience [] s.ahead
    pure (r, { s with ahead := rest })

/-- The next line, `none` at the end. -/
def next (s : Source) : Sys (Option (Except StreamFault String) × Source) := do
  let (r, s) ← s.nextPiece
  match r with
  | .error e => pure (some (.error (.system e)), s)
  | .ok piece =>
    if piece.isEmpty then pure (none, s)
    else
      match lineOf piece with
      | .ok line => pure (some (.ok line), { s with number := s.number + 1 })
      | .error f => pure (some (.error f), s)

def answer (s : Source) : Sys (Parser.Answer × Source) := do
  let (r, s) ← s.next
  pure (match r with
    | none => .endOfInput
    | some (.ok line) => .line line
    | some (.error f) => .failed (.stream f), s)

end Source

end JobShell.Script
