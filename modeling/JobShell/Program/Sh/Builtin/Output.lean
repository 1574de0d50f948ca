import JobShell.Program.Directive
import JobShell.Program.Sh.Builtin.Basic

namespace JobShell.Program.Sh

def echoCommand (words : List String) : Work Int := do
  let (newlineWanted, words) := match words with
    | "-n" :: rest => (false, rest)
    | words => (true, words)
  say (echoed (some { escapeKey := true, zeroLeads := true }) newlineWanted words)
  pure 0

namespace Print

structure Progress where
  words : List String
  failed : Bool := false

abbrev Printing := StateT Progress Work

def put (cs : List Char) : Printing Unit := liftM (Sh.sayText (String.ofList cs))

def next? : Printing (Option String) := do
  let p ← get
  match p.words with
  | [] => pure none
  | w :: ws => do
    set { p with words := ws }
    pure (some w)

def number {α : Type} (ofByte : Nat → α) (take : String → Taken α) : Printing α := do
  let word := (← next?).getD ""
  match word.toList with
  | q :: cs =>
    if q = '\x27' || q = '\x22' then pure (ofByte (cs.headD '\x00').toNat) else plain word
  | [] => pure (ofByte 0)
where
  plain (word : String) : Printing α := do
    let t := take word
    if !t.complete then
      fault (word ++ if t.begun then ": not completely converted" else ": expected numeric value")
    else if t.outside then fault (word ++ ": Numerical result out of range")
    pure t.value
  fault (text : String) : Printing Unit := do
    liftM (tell text)
    modify fun p ↦ { p with failed := true }

def integer : Printing Int := number Int.ofNat Taken.signed

def takeReal (word : String) : Taken Floating :=
  Taken.ofRead (.finite false 0 0) word (Precision.double.read word.toList)

def starred (s : Size) : Printing Int := do
  match s with
  | .star => return (← integer).bmod 4294967296
  | _ => pure 0

/-- Prints the next word by a directive. Tells whether to go on, or nothing if the letter stands for no
conversion. -/
def convert? (d : Directive) (letter : Char) : Printing (Option Bool) := do
  if letter = 's' then do
    put (d.text ((← next?).getD "").toList)
    pure (some true)
  else if letter = 'b' then do
    let (bs, stopped) := unescape { escapeKey := true, zeroLeads := true } ((← next?).getD "")
    put (d.text (bs.map Char.ofUInt8))
    pure (some !stopped)
  else if letter = 'c' then do
    put (d.pad [((← next?).getD "").toList.headD '\x00'])
    pure (some true)
  else if letter = 'd' || letter = 'i' then do
    put (d.signed (← integer))
    pure (some true)
  else if "ouxX".toList.contains letter then do
    put (d.unsigned letter (← number id Taken.unsigned))
    pure (some true)
  else if "aAeEfFgG".toList.contains letter then do
    let ofByte (n : Nat) : Floating := (Precision.double.round false n 1).1
    put (d.real .double letter (← number ofByte takeReal))
    pure (some true)
  else pure none

/-- Prints the directive behind a percent sign. Gives what follows it, and whether to go on. -/
def directive (cs : List Char) : Printing (List Char × Bool) := do
  match cs with
  | '%' :: rest => do
    put ['%']
    pure (rest, true)
  | _ => do
    let (s, rest) := Spec.read "#-+ 0".toList cs
    let width ← starred s.width
    let precision ← starred s.precision
    match rest with
    | [] => liftM (abort "missing format character" : Work (List Char × Bool))
    | letter :: after =>
      match ← convert? (s.directive width precision) letter with
      | some goesOn => pure (after, goesOn)
      | none =>
        let shown := '%' :: cs.take (cs.length - after.length)
        liftM (abort (String.ofList shown ++ ": invalid directive") : Work (List Char × Bool))

/-- Prints by a format once, reading at most so many of its characters. Tells whether to go on. -/
def once : Nat → List Char → Printing Bool
  | 0, _ => pure true
  | _ + 1, [] => pure true
  | n + 1, c :: cs => do
    let (rest, goesOn) : List Char × Bool ←
      if c = '\\' then
        match readEscape { escapeKey := true } cs with
        | .byte b rest => do
          put [Char.ofUInt8 b]
          pure (rest, true)
        | _ => do
          put ['\\']
          pure (cs, true)
      else if c = '%' then directive cs
      else do
        put [c]
        pure (cs, true)
    if goesOn then once n rest else pure false

def repeatedly (format : List Char) : Nat → Printing Unit
  | 0 => pure ()
  | n + 1 => do
    let before := (← get).words.length
    if ← once (format.length + 1) format then
      let left := (← get).words.length
      if 0 < left && left < before then repeatedly format n

end Print

def printfCommand (words : List String) : Work Int := do
  match ← withoutOptions words with
  | [] => abort "usage: printf format [arg ...]"
  | format :: args => do
    let (_, p) ← (Print.repeatedly format.toList (args.length + 1)).run ⟨args, false⟩
    pure (if p.failed then 1 else 0)

end JobShell.Program.Sh
