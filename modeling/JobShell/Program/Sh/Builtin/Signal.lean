import JobShell.Program.Sh.Builtin.Job

namespace JobShell.Program.Sh

def signalCount : Nat := 65

def leastUnnamed : Nat := 32

def signalName (n : Nat) : String :=
  let above (n : Nat) : String := if n = 0 then "" else "+" ++ Decimal.text n
  let below (n : Nat) : String := if n = 0 then "" else "-" ++ Decimal.text n
  if n = 0 then "EXIT"
  else if leastRealTime ≤ n && n ≤ 49 then "RTMIN" ++ above (n - leastRealTime)
  else if 50 ≤ n && n ≤ 64 then "RTMAX" ++ below (64 - n)
  else
    match Signal.ofNumber? n with
    | some .stkflt | none => Decimal.text n
    | some s => s.shortName

def signalOf? (least : Nat) (word : String) : Option Nat :=
  let byName := (List.range signalCount).find? fun n ↦ least ≤ n && signalName n == word.toUpper
  if isNumeral word then
    let n := Decimal.value word.toList
    if n < signalCount then some n else byName
  else byName

def killUsage {α : Type} : Work α :=
  abort "Usage: kill [-s sigspec | -signum | -sigspec] [pid | job]... or\nkill -l [exitstatus]"

def killFlags (words : List String) : Work (Option Nat × Bool × List String) := do
  match words with
  | [] => pure (none, false, [])
  | word :: rest =>
    if !word.startsWith "-" then pure (none, false, words)
    else
      match signalOf? 1 (word.drop 1).toString with
      | some n => pure (some n, false, rest)
      | none => do
        let (flags, rest) ← readOptions "l" "s" words
        let named := flags.filter (·.1 == 's')
        match named.find? fun f ↦ (signalOf? 1 f.2).isNone with
        | some (_, name) => abort ("invalid signal number or name: " ++ name)
        | none => pure (named.getLast?.bind fun f ↦ signalOf? 1 f.2, hasFlag flags 'l', rest)

def killTarget (word : String) : Work Int := do
  match word.toList with
  | '%' :: _ => do
    let j ← jobNamed (some word) false
    pure (-((j.children.head?.map (·.pid)).getD 0))
  | '-' :: digits => return -(← numberOf (String.ofList digits) : Nat)
  | _ => return (← numberOf word : Nat)

def sendNumbered (signal : Nat) (pid : Int) : Work (Except Errno Unit) :=
  if signal < leastUnnamed then ask (.kill pid (Signal.ofNumber? signal))
  else ask (.killRealTime pid signal)

def killAll (signal : Nat) : Int → List String → Work Int
  | code, [] => pure code
  | code, word :: rest => do
    let pid ← killTarget word
    match ← sendNumbered signal pid with
    | .ok _ => killAll signal code rest
    | .error e => do
      tell (e.libraryText ++ "\n")
      killAll signal 1 rest

def listSignals : List String → Work Int
  | [] => do
    sayText ("0\n" ++ String.join ((List.range (signalCount - 1)).map fun n ↦ signalName (n + 1) ++ "\n"))
    pure 0
  | word :: _ => do
    let n ← numberOf word
    let signal := if n > 128 then n - 128 else n
    if 0 < signal && signal < signalCount then
      sayText (signalName signal ++ "\n")
      pure 0
    else abort ("invalid signal number or exit status: " ++ word)

def killCommand (words : List String) : Work Int := do
  if words.isEmpty then killUsage
  else
    let (signal, lists, words) ← killFlags words
    if lists then (if signal.isSome && !words.isEmpty then killUsage else listSignals words)
    else if words.isEmpty then killUsage
    else killAll (signal.getD 15) 0 words

def applyTrap (n : Nat) : Work Unit := do
  match signalNumbered? n with
  | none => pure ()
  | some signal => do
    if !(← get).settled.contains signal then
      if (← ask (.disposition signal)) = .ignore then return
    let d : Disposition := match (← get).traps.find? (·.1 == n) with
      | none => .default
      | some (_, action) => if action.isEmpty then .ignore else .notice
    let _ ← ask (.setDisposition signal d)
    modify fun s ↦ { s with settled := signal :: s.settled.filter (· != signal) }

def setTrap (action : Option String) (n : Nat) : Work Unit := do
  modify fun s ↦
    let others := s.traps.filter (·.1 != n)
    { s with traps := match action with
        | some a => others ++ [(n, a)]
        | none => others }
  applyTrap n

def setTraps (action : Option String) : List String → Work Int
  | [] => pure 0
  | word :: rest => do
    match signalOf? 0 word with
    | none => do
      sys (complain ("trap: " ++ word ++ ": bad trap"))
      pure 1
    | some n => do
      setTrap action n
      setTraps action rest

def trapCommand (words : List String) : Work Int := do
  let isNumber (word : String) : Bool := isNumeral word && Decimal.value word.toList < signalCount
  match ← withoutOptions words with
  | [] => do
    let traps := (← get).traps.mergeSort fun a b ↦ decide (a.1 ≤ b.1)
    sayText (String.join (traps.map fun t ↦
      "trap -- " ++ shownValue t.2 ++ " " ++ signalName t.1 ++ "\n"))
    pure 0
  | [word] => setTraps none [word]
  | action :: rest =>
    if isNumber action then setTraps none (action :: rest)
    else setTraps (if action = "-" then none else some action) rest

end JobShell.Program.Sh
