import JobShell.Sys.Stream

namespace JobShell

structure LineBuffer where
  held : ByteArray := ByteArray.empty

namespace LineBuffer

def capacity : Nat := 1024

def newline : UInt8 := 10

def writeDirectly (fd : Int) (bytes : ByteArray) : Sys (Except Errno Unit) := do
  match (← Sys.writeAll fd bytes).1 with
  | .ok _ => pure (.ok ())
  | .error e => pure (if e = .badDescriptor then .ok () else .error e)

def flush (fd : Int) (b : LineBuffer) : Sys (Except Errno Unit × LineBuffer) := do
  match ← Sys.writeAll fd b.held with
  | (.ok _, _) => pure (.ok (), {})
  | (.error e, left) => pure (if e = .badDescriptor then (.ok (), {}) else (.error e, ⟨left⟩))

/-- Holds bytes. If there is no room for them, those held before are written first. -/
def hold (fd : Int) (b : LineBuffer) (bytes : ByteArray) : Sys (Except Errno Unit × LineBuffer) := do
  let room := capacity - b.held.size
  if bytes.size < room then pure (.ok (), ⟨b.held ++ bytes⟩)
  else
    let (r, b) ← if room < bytes.size then b.flush fd else pure (.ok (), b)
    match r with
    | .error e => pure (.error e, b)
    | .ok _ =>
      if capacity ≤ bytes.size then return (← writeDirectly fd bytes, b)
      else pure (.ok (), ⟨b.held ++ bytes⟩)

def completeLines (bytes : ByteArray) : ByteArray × ByteArray :=
  let rest := (bytes.toList.reverse.takeWhile (· ≠ newline)).length
  (bytes.extract 0 (bytes.size - rest), bytes.extract (bytes.size - rest) bytes.size)

/-- Adds complete lines to what is held and writes it all. -/
def writeLines (fd : Int) (b : LineBuffer) (lines : ByteArray) :
    Sys (Except Errno Unit × LineBuffer) := do
  if b.held.isEmpty then return (← writeDirectly fd lines, b)
  else
    match ← b.hold fd lines with
    | (.ok _, b) => b.flush fd
    | (.error e, b) => pure (.error e, b)

/-- Puts bytes through the buffer: up to their last newline they are written, the rest is held. A line
that is complete and still held is written before more is added to it. -/
def write (fd : Int) (b : LineBuffer) (bytes : ByteArray) : Sys (Except Errno Unit × LineBuffer) := do
  let (lines, rest) := completeLines bytes
  let (r, b) ←
    if !lines.isEmpty then b.writeLines fd lines
    else if b.held.toList.getLast? = some newline then b.flush fd
    else pure (.ok (), b)
  match r with
  | .ok _ => b.hold fd rest
  | .error e => pure (.error e, b)

def writeEach (fd : Int) (b : LineBuffer) : List String → Sys (Except Errno Unit × LineBuffer)
  | [] => pure (.ok (), b)
  | piece :: pieces => do
    match ← b.write fd piece.toUTF8 with
    | (.ok _, b) => writeEach fd b pieces
    | (.error e, b) => pure (.error e, b)

end LineBuffer

end JobShell
