import JobShell.Program.Sh.Builtin.Basic
import JobShell.Program.Sh.Expand

namespace JobShell.Program.Sh

def listVariables (front : String) (keeps : Variable → Bool) : Work Int := do
  let vs := ((← get).vars.filter keeps).mergeSort fun a b ↦ decide (a.name ≤ b.name)
  sayText (String.join (vs.map fun v ↦ front ++ v.name ++ (match v.value with
    | some value => "=" ++ shownValue value
    | none => "") ++ "\n"))
  pure 0

def markVariables (marks : Marks) (words : List String) : Work Int := do
  words.forM fun word ↦ do
    let (name, value) := splitAssignment word
    if value.isNone && ((← get).lookup? name).isSome then modify (·.change name marks.on)
    else
      mustBeName name
      assign name value marks
  pure 0

def markCommand (front : String) (marks : Marks) (isMarked : Variable → Bool) (words : List String) :
    Work Int := do
  -- Only one option is looked at, and what follows it is not.
  match words with
  | word :: _ =>
    if word.startsWith "-p" then listVariables front isMarked
    else
      let (_, words) ← readOptions "" "" words
      if words.isEmpty then listVariables front isMarked else markVariables marks words
  | [] => listVariables front isMarked

def exportCommand : List String → Work Int := markCommand "export " { exported := true } (·.exported)

def readonlyCommand : List String → Work Int :=
  markCommand "readonly " { readOnly := true } (·.readOnly)

def unsetCommand (words : List String) : Work Int := do
  let (flags, words) ← readOptions "vf" "" words
  words.forM fun word ↦ do
    if flags.getLast?.any (·.1 == 'f') then
      modify fun s ↦ { s with functions := s.functions.filter (·.1 != word) }
    else unsetVariable word
  pure 0

def shade (x : Shadow) : Work Unit :=
  modify fun s ↦ { s with shadowed := match s.shadowed with
    | top :: rest => (x :: top) :: rest
    | [] => [[x]] }

def assignForNow (name : String) (value : Option String) (marks : Marks) : Work Unit := do
  let before := (← get).lookup? name
  match before with
  | none => assign name value { marks with permanent := true }
  | some _ => do
    modify (·.change name fun v ↦ { v with permanent := true })
    if value.isSome then assign name value marks
  shade (.variable_ name before)

def unshade (levels : Nat) : Work Unit :=
  modify fun s ↦
    let changes := (s.shadowed.take (s.shadowed.length - levels)).flatten
    let s := { s with shadowed := s.shadowed.drop (s.shadowed.length - levels) }
    changes.foldl (fun (s : State) x ↦ match x with
      | .variable_ name before => s.putBack name before
      | .options before => { s with options := before }) s

def localCommand (words : List String) : Work Int := do
  if (← get).calls = 0 then abort "not in a function"
  words.forM fun word ↦ do
    if word = "-" then
      let options := (← get).options
      shade (.options options)
    else
      let (name, value) := splitAssignment word
      if value.isNone then mustBeName name
      assignForNow name value {}
  pure 0

def switch (option : String) (on : Bool) : Work Unit :=
  modify fun s ↦
    let others := s.options.filter (· != option)
    { s with options := if on then option :: others else others }

def switchLetter (on : Bool) (c : Char) : Work Unit := do
  match optionTable.find? (·.2 == some c) with
  | none => abort ("Illegal option -" ++ String.singleton c)
  | some (option, _) => do
    switch option on
    -- There is one way of editing lines at a time.
    if on && c = 'V' then switch "emacs" false
    if on && c = 'E' then switch "vi" false

def switchName (on : Bool) (option : String) : Work Unit := do
  if optionTable.any (·.1 == option) then switch option on
  else abort ("Illegal option -o " ++ option)

def padded (width : Nat) (text : String) : String :=
  text ++ String.ofList (List.replicate (width - text.length) ' ')

def listOptions (forPeople : Bool) : Work Unit := do
  let s ← get
  if forPeople then
    sayText ("Current option settings\n" ++ String.join (optionTable.map fun o ↦
      padded 16 o.1 ++ (if s.isOn o.1 then "on" else "off") ++ "\n"))
  else
    sayText (String.join (optionTable.map fun o ↦
      "set " ++ (if s.isOn o.1 then "-o " else "+o ") ++ o.1 ++ "\n"))

/-- Carries out the letters of one word. Letters in `others` are not options; they are given back. -/
def readLetters (others : List Char) (on : Bool) : List Char → List String →
    Work (List Char × List String)
  | [], rest => pure ([], rest)
  | c :: cs, rest => do
    if others.contains c then do
      let (seen, rest) ← readLetters others on cs rest
      pure (c :: seen, rest)
    else if c = 'o' then
      match rest with
      | [] => do
        listOptions on
        readLetters others on cs []
      | option :: rest => do
        switchName on option
        readLetters others on cs rest
    else
      switchLetter on c
      readLetters others on cs rest

structure Settings where
  seen : List Char := []
  words : List String := []
  ends : Bool := false

/-- Carries out options, in at most so many words. -/
def readSettings (others : List Char) : Nat → List String → Work Settings
  | 0, words => pure { words }
  | n + 1, words => do
    match words with
    | [] => pure {}
    | word :: rest =>
      match word.toList with
      | ['-'] => do
        if others.isEmpty then
          switch "xtrace" false
          switch "verbose" false
        pure { words := rest }
      | ['-', '-'] => pure { words := rest, ends := true }
      | sign :: cs => do
        if sign ≠ '-' && sign ≠ '+' then pure { words }
        else
          let (seen, rest) ← readLetters others (sign = '-') cs rest
          let s ← readSettings others n rest
          pure { s with seen := seen ++ s.seen }
      | [] => pure { words }

def settleOptions : Work Unit := do
  let s ← get
  if s.isOn "monitor" && s.isRoot then
    if !(← [2, 1, 0].anyM fun fd ↦ ask (.isTerminal fd)) then
      tell "can't access tty; job control turned off"
      switch "monitor" false

def setParameters (words : List String) : Work Unit :=
  modify fun s ↦ { s with parameters := words, optionWord := 1, optionOffset := none }

def setCommand (words : List String) : Work Int := do
  match words with
  | [] => listVariables "" (·.value.isSome)
  | words => do
    let s ← readSettings [] (words.length + 1) words
    settleOptions
    if s.ends || !s.words.isEmpty then setParameters s.words
    pure 0

def shiftCommand (words : List String) : Work Int := do
  let n ← match words with
    | w :: _ => numberOf w
    | [] => pure 1
  let parameters := (← get).parameters
  if n > parameters.length then abort "can't shift that many"
  setParameters (parameters.drop n)
  pure 0

inductive Letter
  | unknown
  | plain
  | valued

def letterIn (c : Char) : List Char → Letter
  | [] => .unknown
  | d :: ds =>
    if d = c then if ds.head? = some ':' then .valued else .plain
    else
      match ds with
      | ':' :: rest => letterIn c rest
      | ds => letterIn c ds

structure OptionStep where
  letter : Char
  word : Nat
  offset : Option Nat := none
  isOver : Bool := false

def tellDirectly (text : String) : Work Unit := sys (complain text)

def setOptionValue (value : String) : Work Unit := setVariable "OPTARG" value

/-- Reads a letter in the word before number `word`, behind which `rest` is left of that word. -/
def readOptionLetter (allowed : String) (words : List String) (word : Nat) (c : Char)
    (rest : List Char) (offset : Nat) : Work OptionStep := do
  let silent := allowed.startsWith ":"
  match letterIn c allowed.toList with
  | .unknown => do
    if silent then setOptionValue (String.singleton c)
    else
      tellDirectly ("Illegal option -" ++ String.singleton c)
      unsetVariable "OPTARG"
    pure { letter := '?', word, offset := some offset }
  | .plain => do
    setOptionValue ""
    pure { letter := c, word, offset := some offset }
  | .valued =>
    if !rest.isEmpty then
      setOptionValue (String.ofList rest)
      pure { letter := c, word }
    else
      match words[word - 1]? with
      | some value => do
        setOptionValue value
        pure { letter := c, word := word + 1 }
      | none =>
        if silent then
          setOptionValue (String.singleton c)
          pure { letter := ':', word }
        else
          tellDirectly ("No arg for -" ++ String.singleton c ++ " option")
          unsetVariable "OPTARG"
          pure { letter := '?', word }

def nextOption (allowed : String) (words : List String) (word : Nat) (offset : Option Nat) :
    Work OptionStep := do
  let current := (offset.map fun n ↦ ((words.getD (word - 2) "").toList.drop n)).getD []
  match (if word ≤ 1 then [] else current), offset with
  | c :: rest, some n => readOptionLetter allowed words word c rest (n + 1)
  | _, _ =>
    match ((words[word - 1]?).getD "").toList with
    | ['-', '-'] => pure { letter := '?', word := word + 1, isOver := true }
    | '-' :: c :: rest => readOptionLetter allowed words (word + 1) c rest 2
    | _ => pure { letter := '?', word, isOver := true }

def getoptsCommand (words : List String) : Work Int := do
  match ← withoutOptions words with
  | allowed :: variableName :: given => do
    let s ← get
    let words := if given.isEmpty then s.parameters else given
    let isBeyond := s.optionWord > words.length + 1
    let (word, offset) := if isBeyond then (1, none) else (s.optionWord, s.optionOffset)
    modify fun s ↦ { s with optionWord := 1, optionOffset := none }
    let step ← nextOption allowed words word offset
    assign "OPTIND" (some (Decimal.text step.word)) {}
    setVariable variableName (String.singleton step.letter)
    modify fun s ↦ { s with optionWord := step.word, optionOffset := step.offset }
    pure (if step.isOver then 1 else 0)
  | _ => abort "Usage: getopts optstring var [arg...]"

end JobShell.Program.Sh
