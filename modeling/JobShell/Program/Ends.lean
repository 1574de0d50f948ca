import JobShell.Program.Amount
import JobShell.Program.Flags

namespace JobShell.Program.Ends

inductive Headers
  | several
  | never
  | always
  deriving DecidableEq

structure Extent where
  count : Nat := 10
  inBytes : Bool := false
  fromEnd : Bool
  ending : UInt8 := newline
  headers : Headers := .several

def split (ending : UInt8) (b : ByteArray) : List ByteArray :=
  let (line, all) := b.toList.foldl (fun (acc : List UInt8 × List ByteArray) x ↦
    if x = ending then ([], ⟨(x :: acc.1).reverse.toArray⟩ :: acc.2) else (x :: acc.1, acc.2)) ([], [])
  (if line.isEmpty then all else ⟨line.reverse.toArray⟩ :: all).reverse

def Extent.split (x : Extent) (b : ByteArray) : List ByteArray := Ends.split x.ending b

def isWhole (ending : UInt8) (line : ByteArray) : Bool := line.toList.getLast? = some ending

abbrev Part := ByteArray × Option (String × Errno)

def Part.ofRead (r : ByteArray × Option Errno) : Part := (r.1, r.2.map fun e ↦ ("error reading", e))

/-- Shows a part of each of some files, with headers between them if they are wanted. With `keeps`, files
stay open; with `strict`, a file that cannot be read ends the program. Gives the descriptors of those
that stay open, and whether all went well. -/
def showParts (name : String) (headers keeps strict : Bool) (part : Int → Sys Part) :
    Bool → Bool → List (Int × String) → List String → Held (List (Int × String) × Bool)
  | _, ok, kept, [] => pure (kept.reverse, ok)
  | isFirst, ok, kept, path :: rest => do
    let label := if path = "-" then "standard input" else path
    match ← liftM (openInput path) with
    | .error e => do
      Held.blame (name ++ ": cannot open " ++ quotedName path ++ " for reading: " ++ e.libraryText)
      showParts name headers keeps strict part isFirst false kept rest
    | .ok fd => do
      if headers then Held.say ((if isFirst then "" else "\n") ++ "==> " ++ label ++ " <==\n")
      let (data, fault) : Part ← liftM (part fd)
      Held.put data
      match fault with
      | some (what, e) => do
        Held.blame (name ++ ": " ++ what ++ " " ++ quotedName label ++ ": " ++ e.libraryText)
        if strict then Held.leave 1
      | none => pure ()
      if !keeps then liftM (closeInput fd)
      showParts name headers keeps strict part false (ok && fault.isNone)
        (if keeps then (fd, label) :: kept else kept) rest

def Extent.wantsHeaders (x : Extent) (paths : List String) : Bool :=
  match x.headers with
  | .several => 1 < paths.length
  | .never => false
  | .always => true

def countOf (inBytes : Bool) (text : String) : Except String Nat :=
  (Amount.read Amount.sizeUnits text).mapError
    (Amount.refusal ("invalid number of " ++ if inBytes then "bytes" else "lines") text)

abbrev Misuse := String × Bool

def plainly {α : Type} (r : Except String α) : Except Misuse α := r.mapError (·, false)

def refuse (name : String) (m : Misuse) : Sys Int := do
  if m.2 then tryHelp name m.1 else complain (name ++ ": " ++ m.1)
  pure 1

def digitSwitches : List Switch :=
  "0123456789".toList.map fun c ↦ { key := String.singleton c, letters := String.singleton c }

end JobShell.Program.Ends
