import JobShell.Machine.Locate
import JobShell.Machine.Signals

namespace JobShell.Machine

variable {α : Type}

inductive Outcome (α β : Type) where
  | reply (r : β) (m : Machine α)
  | wait (m : Machine α)
  | retry (m : Machine α)

def pipeCapacity : Nat := 65536

def atomicWrite : Nat := 4096

def splice (data : ByteArray) (position : Nat) (bytes : ByteArray) : ByteArray :=
  if position = data.size then data ++ bytes
  else
    let gap : ByteArray := ⟨(List.replicate (position - data.size) 0).toArray⟩
    data.extract 0 position ++ gap ++ bytes ++ data.extract (position + bytes.size) data.size

def appendTo (m : Machine α) (index : Nat) (f : OpenFile) (bytes : ByteArray) :
    Except Errno (Machine α) :=
  match f.channel with
  | .node n =>
    match m.files.node? n with
    | some ⟨.bytes data, mode, _⟩ =>
      let position := if f.append then data.size else f.position
      let node : Node := ⟨.bytes (splice data position bytes), mode, m.now⟩
      let m := { m with files := m.files.setNode n node }
      .ok (m.setPosition index (position + bytes.size))
    | some ⟨.full, _, _⟩ => .error .noSpace
    | _ => .ok m
  | _ => .ok m

/-- Writes to the open file `index`. -/
def writeTo (m : Machine α) (t : Task α) (index : Nat) (f : OpenFile) (bytes : ByteArray) :
    Outcome α (Except Errno Nat) :=
  match f.channel with
  | .pipe p =>
    let held := m.pipes.getD p ByteArray.empty
    if !m.holdsEnd p (·.readable) then .reply (.error .brokenPipe) (m.deliver t.pid .pipe)
    else if bytes.size = 0 then .reply (.ok 0) m
    else
      let room := pipeCapacity - held.size
      if room = 0 || (bytes.size ≤ atomicWrite && room < bytes.size) then .wait m
      else
        let n := min room bytes.size
        .reply (.ok n) { m with pipes := m.pipes.setIfInBounds p (held ++ bytes.extract 0 n) }
  | _ =>
    match m.appendTo index f bytes with
    | .ok m => .reply (.ok bytes.size) m
    | .error e => .reply (.error e) m

/-- A task of a background group may not read the terminal; it is stopped if it can be. -/
def readTerminal (m : Machine α) (t : Task α) (count : Nat) : Outcome α (Except Errno ByteArray) :=
  match m.terminal with
  | none => .reply (.error .inputOutput) m
  | some terminal =>
    if t.group ≠ terminal.foreground then
      if t.ignored.contains .ttin || m.isOrphaned t.group then .reply (.error .inputOutput) m
      else .retry ((m.members t.group).foldl (fun m u ↦ m.deliver u.pid .ttin) m)
    else
      match terminal.typed with
      | [] => .wait m
      | piece :: later =>
        let typed :=
          if piece.size ≤ count then later else piece.extract count piece.size :: later
        .reply (.ok (piece.extract 0 count)) { m with terminal := some { terminal with typed } }

/-- Reads at most `count` bytes from the open file `index`; none at its end. -/
def readFrom (m : Machine α) (t : Task α) (index : Nat) (f : OpenFile) (count : Nat) :
    Outcome α (Except Errno ByteArray) :=
  match f.channel with
  | .terminal => m.readTerminal t count
  | .pipe p =>
    let held := m.pipes.getD p ByteArray.empty
    if held.size = 0 then
      if m.holdsEnd p (·.writable) then .wait m else .reply (.ok ByteArray.empty) m
    else
      .reply (.ok (held.extract 0 count))
        { m with pipes := m.pipes.setIfInBounds p (held.extract count held.size) }
  | .node n =>
    match m.files.node? n with
    | some ⟨.bytes data, _, _⟩ =>
      let piece := data.extract f.position (f.position + count)
      .reply (.ok piece) (m.setPosition index (f.position + piece.size))
    | some ⟨.directory, _, _⟩ => .reply (.error .isDirectory) m
    | some ⟨.zero, _, _⟩ | some ⟨.full, _, _⟩ =>
      .reply (.ok ⟨(List.replicate count 0).toArray⟩) m
    | _ => .reply (.ok ByteArray.empty) m

def install (m : Machine α) (t : Task α) (f : OpenFile) (closeOnExec : Bool) :
    Except Errno (Nat × Machine α) := do
  let (index, m) := m.addOpenFile f
  let (fd, d) ← t.descriptors.open? 0 ⟨index, closeOnExec⟩
  .ok (fd, m.setDescriptors t.pid d)

def openPath (m : Machine α) (t : Task α) (path : String) (flags : OpenFlags) (mode : Nat) :
    Except Errno (Nat × Machine α) := do
  let (channel, m) ← m.openChannel t path flags mode
  m.install t ⟨channel, 0, flags.readable, flags.writable, flags.append⟩ flags.closeOnExec

def makePipe (m : Machine α) (t : Task α) : Except Errno ((Nat × Nat) × Machine α) := do
  let p := m.pipes.size
  let m := { m with pipes := m.pipes.push ByteArray.empty }
  let (r, m) ← m.install t ⟨.pipe p, 0, true, false, false⟩ false
  let t := (m.task? t.pid).getD t
  let (w, m) ← m.install t ⟨.pipe p, 0, false, true, false⟩ false
  .ok ((r, w), m)

def makeTemporary (m : Machine α) (t : Task α) (template : String) :
    Except Errno ((Nat × String) × Machine α) := do
  let digits := Decimal.text m.serial
  let stamp := String.ofList (List.replicate (6 - digits.length) '0') ++ digits
  let path := (template.dropEnd 6).toString ++ stamp
  let m := { m with serial := m.serial + 1 }
  let (fd, m) ← m.openPath t path
    { readable := true, writable := true, create := true, exclusive := true } 0o600
  .ok ((fd, path), m)

end JobShell.Machine
