import JobShell.Program.Sh.Builtin.Basic

namespace JobShell.Program.Sh

structure Limit where
  letter : Char
  name : String
  unit : Nat := 1
  soft : Option Nat := none
  hard : Option Nat := none

def limitTable : List Limit :=
  [{ letter := 't', name := "time(seconds)" }, { letter := 'f', name := "file(blocks)", unit := 512 },
    { letter := 'd', name := "data(kbytes)", unit := 1024 },
    { letter := 's', name := "stack(kbytes)", unit := 1024, soft := some 8388608 },
    { letter := 'c', name := "coredump(blocks)", unit := 512, soft := some 0 },
    { letter := 'm', name := "memory(kbytes)", unit := 1024 },
    { letter := 'l', name := "locked memory(kbytes)", unit := 1024, soft := some 8388608,
      hard := some 8388608 },
    { letter := 'p', name := "process", soft := some 128620, hard := some 128620 },
    { letter := 'n', name := "nofiles", soft := some 20000, hard := some 20000 },
    { letter := 'v', name := "vmemory(kbytes)", unit := 1024 }, { letter := 'w', name := "locks" },
    { letter := 'r', name := "rtprio", soft := some 0, hard := some 0 }]

structure Which where
  soft : Bool := true
  hard : Bool := true

def limitValues (l : Limit) : Work (Option Nat × Option Nat) := do
  match (← get).limits.find? (·.1 == l.letter) with
  | some (_, soft, hard) => pure (soft, hard)
  | none => pure (l.soft, l.hard)

def limitText (l : Limit) (w : Which) : Work String := do
  let (soft, hard) ← limitValues l
  pure (match if w.soft then soft else hard with
    | none => "unlimited"
    | some n => Decimal.text (n / l.unit : Nat))

def whichOf (flags : List Flag) : Which :=
  match (flags.filter fun f ↦ f.1 == 'H' || f.1 == 'S').getLast? with
  | some ('H', _) => { soft := false }
  | some _ => { hard := false }
  | none => {}

def limitValue (l : Limit) (word : String) : Work (Option Nat) := do
  if word = "unlimited" then pure none
  else if word.all Decimal.isDigit then pure (some (Decimal.value word.toList * l.unit))
  else abort "bad number"

def mostFiles : Nat := 1048576

def setLimit (l : Limit) (w : Which) (value : Option Nat) : Work Unit := do
  let (soft, hard) ← limitValues l
  let soft := if w.soft then value else soft
  let hard := if w.hard then value else hard
  let isBelow : Bool := match soft, hard with
    | _, none => true
    | some a, some b => a ≤ b
    | none, some _ => false
  if !isBelow then abort "error setting limit (Invalid argument)"
  if l.letter = 'n' && !hard.any (· ≤ mostFiles) then
    abort "error setting limit (Operation not permitted)"
  modify fun s ↦ { s with limits := (l.letter, soft, hard) :: s.limits.filter (·.1 != l.letter) }

def ulimitCommand (words : List String) : Work Int := do
  let (flags, words) ← readOptions "HSatfdscmlpnvwr" "" words
  let which := whichOf flags
  let kind := ((flags.filter fun f ↦ !"HSa".toList.contains f.1).getLast?.map (·.1)).getD 'f'
  let l := (limitTable.find? (·.letter == kind)).getD { letter := 'f', name := "file(blocks)" }
  let shows := hasFlag flags 'a'
  match words with
  | [] => do
    if shows then
      limitTable.forM fun l ↦ do
        let name := l.name ++ String.ofList (List.replicate (20 - l.name.length) ' ')
        sayText (name ++ " " ++ (← limitText l which) ++ "\n")
    else sayText ((← limitText l which) ++ "\n")
    pure 0
  | word :: rest => do
    if shows || !rest.isEmpty then abort "too many arguments"
    setLimit l which (← limitValue l word)
    pure 0

def timesCommand (_ : List String) : Work Int := do
  sayText "0m0.000000s 0m0.000000s\n0m0.000000s 0m0.000000s\n"
  pure 0

end JobShell.Program.Sh
