import JobShell.Program.Sh.Builtin.Basic
import JobShell.Program.Sh.Field

namespace JobShell.Program.Sh

structure LineRead where
  bytes : List (UInt8 × Bool) := []
  isWhole : Bool := false

def backslash : UInt8 := 92

def readLine (raw : Bool) : Nat → Bool → List (UInt8 × Bool) → Work LineRead
  | 0, _, _ => sys Sys.hang
  | n + 1, isProtected, bytes => do
    match ← sys (Sys.read Sys.stdin 1) with
    | .error _ => pure { bytes }
    | .ok piece =>
      match piece.toList with
      | [] => pure { bytes }
      | b :: _ =>
        if b = 0 then readLine raw n isProtected bytes
        else if isProtected then readLine raw n false (if b = newline then bytes else (b, true) :: bytes)
        else if b = backslash && !raw then readLine raw n true bytes
        else if b = newline then pure { bytes, isWhole := true }
        else readLine raw n false ((b, false) :: bytes)

def partsOfLine (bytes : List (UInt8 × Bool)) : List Part :=
  bytes.reverse.map fun b ↦
    ⟨if b.2 then .whole else .split, [.char (Char.ofNat b.1.toNat) b.2]⟩

def joinParts : List Part → List Part
  | [] => []
  | p :: ps =>
    match joinParts ps with
    | q :: qs =>
      if p.region = .split && q.region = .split then ⟨.split, p.items ++ q.items⟩ :: qs else p :: q :: qs
    | [] => [p]

def assignFields : List String → List Field → Work Unit
  | [], _ => pure ()
  | name :: names, fields => do
    setVariable name (String.ofList ((fields.head?.map Field.text).getD []))
    assignFields names fields.tail

def readCommandWords (words : List String) : Work Int := do
  let (flags, names) ← readOptions "r" "p" words
  match flags.reverse.find? (·.1 == 'p') with
  | some (_, prompt) =>
    if ← ask (.isTerminal Sys.stdin) then
      let _ ← sys (Sys.writeAll Sys.stderr (Text.toBytes prompt))
  | none => pure ()
  if names.isEmpty then abort "arg count"
  let line ← readLine (hasFlag flags 'r') Sys.patience false []
  let parts := joinParts (partsOfLine line.bytes)
  assignFields names (splitFields (← get).separators (some names.length) parts)
  pure (if line.isWhole then 0 else 1)

end JobShell.Program.Sh
