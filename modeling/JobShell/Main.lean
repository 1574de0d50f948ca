import JobShell.CommandLine
import JobShell.Machine.Boot
import JobShell.Program.Installed

namespace JobShell

def inheritedNames : List String := ["HOME", "LC_ALL", "PATH", "TERM"]

def inheritedVariables : IO Environment :=
  inheritedNames.filterMapM fun name ↦ do
    return (← IO.getEnv name).map fun value ↦ (name, value)

def namedFiles (words : List String) : IO (List (String × ByteArray)) :=
  words.filterMapM fun (name : String) ↦ do
    try
      return some (name, ← IO.FS.readBinFile name)
    catch _ => return none

def writeBack (before : List (String × ByteArray)) (e : Machine.Entry) : IO Unit := do
  match e.content with
  | none => pure ()
  | some bytes =>
    let same := before.any fun f ↦ f.1 == e.name && f.2.toList == bytes.toList
    if !same then IO.FS.writeBinFile e.name bytes

def exitCodeOf (r : Machine.Result Int) : UInt32 :=
  match r with
  | .ended (.exited code) => UInt32.ofNat code.toNat
  | .ended (.killed s _) => UInt32.ofNat (128 + s.number)
  | _ => 1

end JobShell

open JobShell in
def main (words : List String) : IO UInt32 := do
  let stdin ← IO.getStdin
  let hasTerminal ← stdin.isTty
  let input ← stdin.readToEnd
  let files ← namedFiles words
  let (machine, capture) := Machine.boot Program.installed
    { files, environment := ← inheritedVariables, input := input.toUTF8, hasTerminal }
    (CommandLine.program words)
  let (result, machine) := machine.run
  (← IO.getStdout).write (machine.contentOf capture.out)
  (← IO.getStderr).write (machine.contentOf capture.err)
  machine.entries.forM (writeBack files)
  pure (exitCodeOf result)
