namespace JobShell.Machine

structure Typing where
  line : List UInt8 := []
  size : Nat := 0
  literal : Bool := false

namespace Typing

/-- The keys that do something. -/
inductive Key
  | lineEnd
  | inputEnd
  | erase
  | eraseWord
  | eraseLine
  | quote
  | flow
  | interrupt
  | plain
  deriving DecidableEq, Repr

def keyOf (b : UInt8) : Key :=
  if b = 10 || b = 13 then .lineEnd
  else if b = 4 then .inputEnd
  else if b = 127 then .erase
  else if b = 23 then .eraseWord
  else if b = 21 then .eraseLine
  else if b = 22 then .quote
  else if b = 17 || b = 19 then .flow
  else if b = 3 || b = 28 || b = 26 then .interrupt
  else .plain

def capacity : Nat := 4096

def isWordByte (b : UInt8) : Bool :=
  (48 ≤ b && b ≤ 57) || (65 ≤ b && b ≤ 90) || b = 95 || (97 ≤ b && b ≤ 122)
    || (192 ≤ b && b ≠ 215 && b ≠ 247)

def ofLine (line : List UInt8) : Typing := { line, size := line.length }

def push (t : Typing) (b : UInt8) : Typing := ⟨b :: t.line, t.size + 1, false⟩

def makeRoom (t : Typing) : Typing :=
  if capacity ≤ t.size then { t with line := t.line.tail, size := t.size - 1 } else t

def withoutWord (line : List UInt8) : List UInt8 :=
  (line.dropWhile (!isWordByte ·)).dropWhile isWordByte

def piece (t : Typing) : ByteArray := ⟨t.line.reverse.toArray⟩

/-- Takes a key. `pieces` are those that have been typed before, the last first. -/
def press (b : UInt8) (t : Typing) (pieces : List ByteArray) : Typing × List ByteArray :=
  let t := t.makeRoom
  if t.literal then (t.push b, pieces)
  else
    match keyOf b with
    | .lineEnd => ({}, (t.push 10).piece :: pieces)
    | .inputEnd => ({}, t.piece :: pieces)
    | .erase => ({ t with line := t.line.tail, size := t.size - 1 }, pieces)
    | .eraseWord => (ofLine (withoutWord t.line), pieces)
    | .eraseLine => ({}, pieces)
    | .quote => ({ t with literal := true }, pieces)
    | .flow => (t, pieces)
    | .interrupt => ({}, [])
    | .plain => (t.push b, pieces)

def pieces (keys : List UInt8) : List ByteArray :=
  let (t, done) := keys.foldl (fun (acc : Typing × List ByteArray) b ↦ press b acc.1 acc.2) ({}, [])
  (if t.line.isEmpty then done else t.piece :: done).reverse

end Typing

end JobShell.Machine
