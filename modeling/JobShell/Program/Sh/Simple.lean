import JobShell.Program.Sh.Control

namespace JobShell.Program.Sh

def expandFirst (run : Runner) : List Word → Work (List String × List Word)
  | [] => pure ([], [])
  | w :: ws => do
    match ← expandFields run w with
    | [] => expandFirst run ws
    | fields => pure (fields, ws)

/-- What the first words of a command tell of it. `shown` are words that only introduce it. With `plain`
functions do not count, with `standard` programs are looked for in the standard directories. The misuse of
a command that is `special` ends the shell; where changes are `brief`, what is assigned in front is
forgotten after the command. -/
structure Introduction where
  shown : List String := []
  fields : List String := []
  rest : List Word := []
  plain : Bool := false
  standard : Bool := false
  special : Bool := false
  brief : Bool := false

def assigningNames : List String := ["alias", "export", "local", "readonly"]

/-- Reads the flags of `command` in at most so many words. Gives the words of the command that is
introduced, or none if there is no such command. -/
def readIntroduction (run : Runner) : Nat → Introduction → Work (Option Introduction)
  | 0, _ => pure none
  | n + 1, i => do
    let (fields, rest) ← match i.fields with
      | [] => expandFirst run i.rest
      | fields => pure (fields, i.rest)
    let i := { i with fields, rest }
    match fields with
    | [] => pure none
    | word :: more =>
      match word.toList with
      | ['-', '-'] => do
        let (fields, rest) ← if more.isEmpty then expandFirst run rest else pure (more, rest)
        pure (if fields.isEmpty then none
          else some { i with shown := i.shown ++ [word], fields, rest })
      | '-' :: c :: cs =>
        if (c :: cs).all (· = 'p') then
          readIntroduction run n { i with shown := i.shown ++ [word], fields := more, standard := true }
        else pure none
      | _ => pure (some i)

/-- Finds out what command some words name, behind at most so many introductions. -/
def introduce (run : Runner) (isFirst : Bool) : Nat → Introduction → Work Introduction
  | 0, i => pure i
  | n + 1, i => do
    match i.fields with
    | [] => pure i
    | name :: more => do
      let isFunction := !i.plain && (← get).functions.any (·.1 == name)
      let isSpecial := specialNames.contains name
      if isFunction || !(isSpecial || regularNames.contains name) then pure { i with brief := true }
      else
        let i := if isFirst then { i with special := isSpecial, brief := !isSpecial }
          else { i with brief := true }
        if name = "command" then
          let behind := { i with shown := i.shown ++ [name], fields := more }
          match ← readIntroduction run (n + 1) behind with
          | some i => introduce run false n { i with plain := true }
          | none => pure i
        else pure i

def Introduction.words (i : Introduction) (run : Runner) : Work (List String) := do
  let assigns := !i.fields.isEmpty && assigningNames.contains (i.fields.headD "")
  let isFunction := !i.plain && (← get).functions.any (·.1 == i.fields.headD "")
  let more ← i.rest.mapM fun w ↦ do
    match if assigns && !isFunction then assignment? w else none with
    | some (name, value) => do
      let value ← expandValue run value
      pure [name ++ "=" ++ value]
    | none => expandFields run w
  pure (i.fields ++ more.flatten)

def wordOfText? (s : State) (text : String) : Option Word :=
  let reader : Reader := { source := { rest := text.toList }, aliases := s.aliases, serial := s.serial }
  -- No line of the text ends it.
  let endless : Pending := { number := 0, delimiter := ['\x00'], expands := true, stripsTabs := false }
  match (do readWord (nested readingLimit) (some endless) .double (← getJoined)).run reader with
  | .ok ((_, w), _) => some w.pieces.reverse
  | .error _ => none

def trace (run : Runner) (saved : Saved) (words : List String) : Work Unit := do
  let s ← get
  if s.isOn "xtrace" && !s.isTracing then
    modify fun s ↦ { s with isTracing := true }
    let front := (s.get? "PS4").getD ""
    let front ← match wordOfText? s front with
      | some w => expandDocument run w
      | none => pure front
    let fd := ((saved.find? (·.1 == Sys.stderr)).bind (·.2)).getD Sys.stderr
    let _ ← sys (Sys.writeAll fd (Text.toBytes (front ++ " ".intercalate words ++ "\n")))
    modify fun s ↦ { s with isTracing := false }

def callLimit : Nat := 1000

def endsShell : Except Leave Unit → Bool
  | .error (.exit _) | .error .misuse => true
  | _ => false

/-- Calls a function with parameters of its own. -/
def callFunction (run : Runs) (m : Mode) (body : Tree) (words : List String) : Work Unit := do
  let before ← get
  if before.calls ≥ callLimit then abort "Maximum function recursion depth (1000) reached"
  set { before with
    parameters := words, loops := 0, calls := before.calls + 1, shadowed := [] :: before.shadowed
    optionWord := 1, optionOffset := none }
  let r ← attempt (run { tested := m.tested } body)
  if !endsShell r then unshade before.shadowed.length
  modify fun s ↦ { s with
    parameters := before.parameters, loops := before.loops, calls := before.calls
    optionWord := before.optionWord, optionOffset := before.optionOffset }
  match r with
  | .error (.return_ (some code)) => setStatus code
  | .error (.return_ none) => pure ()
  | r => goOn r

def runProgram (text : RunsText) (m : Mode) (path : String) (index : Nat) (words : List String) :
    Work Unit := do
  if m.final && !hasTraps (← get) then become path index words
  else
    let job ← beginJob
    inChild job (lastWill text) (become path index words)
    setStatus (← finishJob job)

def dispatch (run : Runs) (text : RunsText) (m : Mode) (i : Introduction) (words : List String) :
    Work Unit := do
  match words with
  | [] => do setStatus (← get).substituted
  | name :: args => do
    let s ← get
    match if i.plain then none else s.functions.find? (·.1 == name) with
    | some (_, body) => callFunction run m body args
    | none =>
      match builtin? run text m name args with
      | some work => do
        match ← attempt (underName name work) with
        | .error .misuse => if i.special then throw .misuse
        | r => goOn r
      | none => do
        let path := if i.standard then standardPath else s.path
        let found ← if isNamed name then
            findProgram name (if i.standard then some standardPath else none)
          else pure (.ok 0)
        match found with
        | .ok index => runProgram text m path index words
        | .error e => do
          tell (name ++ ": " ++ runFailure e)
          setStatus 127

def assignInFront (run : Runner) (i : Introduction) (isExec : Bool) :
    List (String × Word) → Work (List String)
  | [] => pure []
  | (name, value) :: rest => do
    let value ← expandValue run value
    if i.brief then assignForNow name (some value) { exported := true }
    else assign name (some value) { exported := isExec }
    return (name ++ "=" ++ value) :: (← assignInFront run i isExec rest)

def runSimple (run : Runs) (text : RunsText) (runner : Runner) (m : Mode) (line : Nat)
    (assignments : List (String × Word)) (words : List Word) (redirects : List (Redirect Word)) :
    Work Unit := do
  modify fun s ↦ { s with line, substituted := 0 }
  let levels := (← get).shadowed.length
  let (fields, rest) ← expandFirst runner words
  let i ← introduce runner true (words.length + fields.length + 1) { fields, rest }
  let words ← i.words runner
  let isExec := words.head? = some "exec" && (i.plain || !(← get).functions.any (·.1 == "exec"))
  let targets ← redirects.mapM (targetOf runner)
  let (connected, saved) ← connectAll runner true targets []
  let outcome ← attempt do
    match connected with
    | .error .misuse => do
      setStatus 2
      if i.special then throw .misuse
    | r => do
      goOn r
      if i.brief then modify fun s ↦ { s with shadowed := [] :: s.shadowed }
      let assigned ← assignInFront runner i (isExec && words.length > 1) assignments
      trace runner saved (assigned ++ i.shown ++ words)
      dispatch run text m i words
  if isExec then forget saved else putBackAll saved
  if !endsShell outcome then unshade levels
  goOn outcome

end JobShell.Program.Sh
