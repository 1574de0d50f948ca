import JobShell.Program.Sh.Simple

namespace JobShell.Program.Sh

def substitute (run : Runs) (text : RunsText) : Runner := fun t ↦ do
  match t with
  | .nothing => pure []
  | t => do
    let (bytes, code) ← collectOutput (lastWill text) (run { final := true } t)
    modify fun s ↦ { s with substituted := code }
    let cs := (Text.ofBytes bytes).toList.filter (· ≠ '\x00')
    pure (cs.reverse.dropWhile (· = '\n')).reverse

def hasSucceeded : Work Bool := return (← get).status = 0

inductive Round
  | again
  | over (code : Option Int)

def round (work : Work Round) : Work Round := do
  modify fun s ↦ { s with loops := s.loops + 1 }
  let r ← attempt work
  modify fun s ↦ { s with loops := s.loops - 1 }
  match r with
  | .ok r => pure r
  | .error (.leaveLoop n) => if n ≤ 1 then pure (.over none) else throw (.leaveLoop (n - 1))
  | .error (.nextRound n) => if n ≤ 1 then pure .again else throw (.nextRound (n - 1))
  | .error l => throw l

def runLoop (condition : Work Bool) (body : Work Unit) : Nat → Int → Work Unit
  | 0, _ => sys Sys.hang
  | n + 1, code => do
    let r ← round do
      if ← condition then
        body
        pure .again
      else pure (.over (some code))
    match r with
    | .again => do runLoop condition body n (← get).status
    | .over code => setStatus (code.getD 0)

def runEach (name : String) (body : Work Unit) : Int → List String → Work Unit
  | code, [] => setStatus code
  | _, w :: ws => do
    assign name (some w) {}
    let r ← round do
      body
      pure .again
    match r with
    | .again => do runEach name body (← get).status ws
    | .over _ => setStatus 0

def choose (run : Runner) (text : List Char) : List (List Word × Tree) → Work (Option Tree)
  | [] => pure none
  | (patterns, body) :: rest => do
    let fitting ← patterns.anyM fun w ↦ do
      let p ← expandPattern run w
      pure (Pattern.fits p text : Bool)
    if fitting then pure (some body) else choose run text rest

def rememberProgram : Tree → Work Unit
  | .simple _ _ (w :: _) _ => do
    match (plainText? w).map String.ofList with
    | none => pure ()
    | some name => do
      let isOther := specialNames.contains name || regularNames.contains name ||
        (← get).functions.any (·.1 == name)
      if isName name && !isOther then
        let _ ← findProgram name none
  | _ => pure ()

/-- Starts the stages of a pipeline as children of a job. Those in the background are shielded, and the
first of them has no input. -/
def startStages (run : Runs) (text : RunsText) (m : Mode) (job : Nat) (background : Bool) :
    Bool → Option Int → List Tree → Work Unit
  | _, _, [] => pure ()
  | isFirst, input, t :: ts => do
    rememberProgram t
    let isLast := ts.isEmpty
    let ends ← if isLast then pure none
      else
        match ← ask .pipe with
        | .ok ends => pure (some ends)
        | .error _ => abort "Pipe call failed"
    inChild job (lastWill text) do
      if background then
        shield
        if isFirst then detachInput
      match ends with
      | some (out, _) => do
        let _ ← ask (.close out)
      | none => pure ()
      match input with
      | some fd => if fd > 0 then moveTo fd Sys.stdin
      | none => pure ()
      match ends with
      | some (_, into) => if into > 1 then moveTo into Sys.stdout
      | none => pure ()
      run { m with final := true } t
    match input with
    | some fd => do
      let _ ← ask (.close fd)
    | none => pure ()
    match ends with
    | some (_, into) => do
      let _ ← ask (.close into)
    | none => pure ()
    startStages run text m job background false (ends.map (·.1)) ts

def noteBackground (job : Nat) : Work Unit := do
  let pid := (← jobNumbered? job).bind Job.pid?
  modify fun s ↦ { s with lastPid := pid }

def runPipeline (run : Runs) (text : RunsText) (m : Mode) (background : Bool) (stages : List Tree) :
    Work Unit := do
  let job ← beginJob
  startStages run text m job background true none stages
  if background then
    noteBackground job
    setStatus 0
  else setStatus (← finishJob job)

def connectForGood (runner : Runner) (targets : List (Int × Target)) : Work Unit := do
  let (r, _) ← connectAll runner false targets []
  goOn r

def runApart (run : Runs) (text : RunsText) (runner : Runner) (m : Mode) (t : Tree)
    (redirects : List (Redirect Word)) : Work Unit := do
  let targets ← redirects.mapM (targetOf runner)
  let work : Work Unit := do
    connectForGood runner targets
    run { m with final := true } t
  if m.final && !hasTraps (← get) then work
  else
    let job ← beginJob
    inChild job (lastWill text) work
    setStatus (← finishJob job)

def runBehind (run : Runs) (text : RunsText) (runner : Runner) (t : Tree)
    (redirects : List (Redirect Word)) : Work Unit := do
  let targets ← redirects.mapM (targetOf runner)
  let job ← beginJob
  inChild job (lastWill text) do
    shield
    detachInput
    connectForGood runner targets
    run { final := true } t
  noteBackground job
  setStatus 0

def runRedirected (run : Runs) (runner : Runner) (m : Mode) (t : Tree)
    (redirects : List (Redirect Word)) : Work Unit := do
  let targets ← redirects.mapM (targetOf runner)
  let (connected, saved) ← connectAll runner true targets []
  match connected with
  | .error .misuse => do
    putBackAll saved
    setStatus 2
  | r => andThen (do
      goOn r
      run { tested := m.tested } t) (putBackAll saved)

def stopOnError (m : Mode) : Work Unit := do
  let s ← get
  if s.isOn "errexit" && !m.tested && s.status ≠ 0 then throw (.exit s.status)

def perform (run : Runs) (text : RunsText) (m : Mode) (t : Tree) : Work Unit := do
  let runner := substitute run text
  let looked : Mode := { tested := true }
  match t with
  | .nothing => pure ()
  | .simple line assignments words redirects =>
    runSimple run text runner m line assignments words redirects
  | .pipeline stages => runPipeline run text m false stages
  | .background (.pipeline stages) _ [] => runPipeline run text m true stages
  | .background t line redirects => do
    setLine line
    runBehind run text runner t redirects
  | .subshell t line redirects => do
    setLine line
    runApart run text runner m t redirects
  | .redirected t line redirects => do
    setLine line
    runRedirected run runner m t redirects
  | .negated t => do
    run looked t
    setStatus (if ← hasSucceeded then 1 else 0)
  | .both a b => do
    run looked a
    if ← hasSucceeded then run m b
  | .either a b => do
    run looked a
    if !(← hasSucceeded) then run m b
  | .next a b => do
    run { tested := m.tested } a
    run m b
  | .branch condition yes no => do
    run looked condition
    if ← hasSucceeded then run m yes
    else
      match no with
      | some t => run m t
      | none => setStatus 0
  | .loop untilTrue condition body =>
    let holds : Work Bool := do
      run looked condition
      return (← hasSucceeded) != untilTrue
    runLoop holds (run { tested := m.tested } body) Sys.patience 0
  | .each line name words body => do
    setLine line
    let words ← match words with
      | some ws => expandWords runner ws
      | none => pure (← get).parameters
    runEach name (run { tested := m.tested } body) 0 words
  | .choice line subject cases => do
    setLine line
    let subject ← expandText runner subject
    match ← choose runner subject.toList cases with
    | some .nothing | none => setStatus 0
    | some t => run m t
  | .define name body => do
    forgetProgram name
    modify fun s ↦ { s with functions := (name, body) :: s.functions.filter (·.1 != name) }
    setStatus 0

def mayStop : Tree → Bool
  | .simple _ _ _ _ | .subshell _ _ _ | .background _ _ _ | .pipeline _ => true
  | _ => false

def runTree : Nat → Runs
  | 0, _, _ => sys Sys.hang
  | n + 1, m, t => do
    let run := runTree n
    let text := runText run
    if (← get).isOn "noexec" then heedSignals text
    else
      heedSignals text
      perform run text m t
      heedSignals text
      if mayStop t then stopOnError m

end JobShell.Program.Sh
