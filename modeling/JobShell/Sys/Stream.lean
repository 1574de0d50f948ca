import JobShell.Failure
import JobShell.Sys.Basic

namespace JobShell.Sys

/-- Writes until everything is written, asking at most so many times. Also gives what is left. -/
def writeLoop (fd : Int) : Nat → ByteArray → Sys (Except Errno Unit × ByteArray)
  | 0, _ => hang
  | n + 1, bytes =>
    if bytes.isEmpty then pure (.ok (), bytes)
    else do
      match ← ask (.write fd bytes) with
      | .ok count => writeLoop fd n (bytes.extract count bytes.size)
      | .error e => if e = .interrupted then writeLoop fd n bytes else pure (.error e, bytes)

def writeAll (fd : Int) (bytes : ByteArray) : Sys (Except Errno Unit × ByteArray) :=
  writeLoop fd patience bytes

def readLoop (fd : Int) (count : Nat) : Nat → Sys (Except Errno ByteArray)
  | 0 => hang
  | n + 1 => do
    match ← ask (.read fd count) with
    | .ok bytes => pure (.ok bytes)
    | .error e => if e = .interrupted then readLoop fd count n else pure (.error e)

def read (fd : Int) (count : Nat) : Sys (Except Errno ByteArray) := readLoop fd count patience

def drainLoop (fd : Int) : Nat → ByteArray → Sys (Except Errno ByteArray)
  | 0, _ => hang
  | n + 1, read => do
    match ← Sys.read fd 65536 with
    | .error e => pure (.error e)
    | .ok piece => if piece.isEmpty then pure (.ok read) else drainLoop fd n (read ++ piece)

def readAll (fd : Int) : Sys (Except Errno ByteArray) := drainLoop fd patience ByteArray.empty

def availableLoop (fd : Int) : Nat → ByteArray → Sys (ByteArray × Option Errno)
  | 0, _ => hang
  | n + 1, read => do
    match ← Sys.read fd 65536 with
    | .error e => pure (read, some e)
    | .ok piece => if piece.isEmpty then pure (read, none) else availableLoop fd n (read ++ piece)

def readAvailable (fd : Int) : Sys (ByteArray × Option Errno) :=
  availableLoop fd patience ByteArray.empty

def stdin : Int := 0

def stdout : Int := 1

def stderr : Int := 2

def drop (fd : Int) : Sys Unit := do
  let _ ← ask (.close fd)

end JobShell.Sys
