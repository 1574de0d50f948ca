import JobShell.Program.Sh.Builtin.Basic
import JobShell.Program.Sh.Search

namespace JobShell.Program.Sh

def regularNames : List String :=
  ["alias", "bg", "cd", "chdir", "command", "echo", "false", "fg", "getopts", "hash", "jobs", "kill",
    "printf", "pwd", "read", "test", "[", "true", "type", "ulimit", "umask", "unalias", "wait"]

def inRows {α : Type} (rows : Nat) (name : α → String) (xs : List α) : List α :=
  xs.mergeSort fun a b ↦ decide (State.rowOf rows (name a) ≤ State.rowOf rows (name b))

def aliasText (a : String × String) : String := a.1 ++ "=" ++ shownValue a.2 ++ "\n"

def setAlias (name value : String) : Work Unit :=
  modify fun s ↦
    if s.aliases.any (·.1 == name) then
      { s with aliases := s.aliases.map fun a ↦ if a.1 == name then (name, value) else a }
    else { s with aliases := s.aliases ++ [(name, value)] }

/-- Sets an alias where a word has an equals sign, but not at its front; shows it where there is none. -/
def aliasEach : Int → List String → Work Int
  | code, [] => pure code
  | code, word :: rest => do
    let cs := word.toList
    let name := cs.take 1 ++ (cs.drop 1).takeWhile (· ≠ '=')
    if name.length < cs.length then
      setAlias (String.ofList name) (String.ofList (cs.drop (name.length + 1)))
      aliasEach code rest
    else
      match (← get).aliases.find? (·.1 == word) with
      | some a => do
        sayText (aliasText a)
        aliasEach code rest
      | none => do
        sys (complain ("alias: " ++ word ++ " not found"))
        aliasEach 1 rest

def aliasCommand (words : List String) : Work Int := do
  if words.isEmpty then
    sayText (String.join ((inRows 39 (·.1) (← get).aliases).map aliasText))
    pure 0
  else aliasEach 0 words

def unaliasEach : Int → List String → Work Int
  | code, [] => pure code
  | code, word :: rest => do
    if (← get).aliases.any (·.1 == word) then
      modify fun s ↦ { s with aliases := s.aliases.filter (·.1 != word) }
      unaliasEach code rest
    else
      sys (complain ("unalias: " ++ word ++ " not found"))
      unaliasEach 1 rest

def unaliasCommand (words : List String) : Work Int := do
  let (flags, words) ← readOptions "a" "" words
  if flags.isEmpty then unaliasEach 0 words
  else
    modify fun s ↦ { s with aliases := [] }
    pure 0

def hashEach : Int → List String → Work Int
  | code, [] => pure code
  | code, name :: rest => do
    let s ← get
    let isKnown := !isNamed name || s.functions.any (·.1 == name) || specialNames.contains name ||
      regularNames.contains name
    if isKnown then hashEach code rest
    else
      forgetProgram name
      match ← findProgram name none with
      | .ok _ => hashEach code rest
      | .error e => do
        tell (name ++ ": " ++ runFailure e)
        hashEach 1 rest

def hashCommand (words : List String) : Work Int := do
  let (flags, words) ← readOptions "r" "" words
  if !flags.isEmpty then
    modify fun s ↦ { s with found := [] }
    pure 0
  else if words.isEmpty then
    let s ← get
    sayText (String.join ((inRows 31 (·.name) s.found).map fun f ↦
      programPath f.name s.path f.index ++ (if f.stale then "*\n" else "\n")))
    pure 0
  else hashEach 0 words

/-- Says what a name stands for: in a sentence, or in a word by which it can be used. -/
def describe (name : String) (other : Option String) (inSentence : Bool) : Work Int := do
  let found (sentence word : String) : Work Int := do
    sayText ((if inSentence then name ++ sentence else word) ++ "\n")
    pure 0
  let missing : Work Int := do
    if inSentence then sayText (name ++ ": not found\n")
    pure 127
  let s ← get
  if reservedWords.contains name then found " is a shell keyword" name
  else
    match s.aliases.find? (·.1 == name) with
    | some a => do
      if inSentence then found (" is an alias for " ++ a.2) ""
      else
        sayText ("alias " ++ aliasText a)
        pure 0
    | none =>
      if !isNamed name then
        match ← ask (.inspect name) with
        | .ok _ => found (" is " ++ name) name
        | .error _ => missing
      else if other.isNone && s.functions.any (·.1 == name) then found " is a shell function" name
      else if specialNames.contains name then found " is a special shell builtin" name
      else if regularNames.contains name then found " is a shell builtin" name
      else
        let isTracked := other.isNone && s.found.any (·.name == name)
        let path := other.getD s.path
        let found? ← match s.found.find? (·.name == name) with
          | some f => if isTracked then pure (.ok f.index) else findProgram name other
          | none => findProgram name other
        match found? with
        | .ok index =>
          let path := programPath name path index
          found ((if isTracked then " is a tracked alias for " else " is ") ++ path) path
        | .error _ => missing

def describeEach : Int → List String → Work Int
  | code, [] => pure code
  | code, name :: rest => do
    let c ← describe name none true
    describeEach (if c = 0 then code else c) rest

def typeCommand (words : List String) : Work Int := describeEach 0 words

def commandCommand (words : List String) : Work Int := do
  let (flags, words) ← readOptions "pvV" "" words
  let other := if hasFlag flags 'p' then some standardPath else none
  match words with
  | name :: _ =>
    if hasFlag flags 'v' || hasFlag flags 'V' then describe name other (hasFlag flags 'V') else pure 0
  | [] => pure 0

end JobShell.Program.Sh
