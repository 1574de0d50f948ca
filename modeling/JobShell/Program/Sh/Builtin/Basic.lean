import JobShell.Program.Sh.State

namespace JobShell.Program.Sh

def refuse (text : String) : Work Int := do
  tell text
  pure 2

def isNumeral (word : String) : Bool := !word.isEmpty && word.all Decimal.isDigit

def numberOf (word : String) : Work Nat := do
  match count? word with
  | some n => pure n
  | none => abort ("Illegal number: " ++ word)

abbrev Flag := Char × String

def readFlags (plain valued : String) : List Char → List String → Work (List Flag × List String)
  | [], rest => pure ([], rest)
  | c :: cs, rest => do
    if plain.toList.contains c then do
      let (flags, rest) ← readFlags plain valued cs rest
      pure ((c, "") :: flags, rest)
    else if valued.toList.contains c then
      match cs, rest with
      | [], [] => abort ("No arg for -" ++ String.singleton c ++ " option")
      | [], value :: rest => pure ([(c, value)], rest)
      | cs, rest => pure ([(c, String.ofList cs)], rest)
    else abort ("Illegal option -" ++ String.singleton c)

def readOptionsFor (plain valued : String) : Nat → List String → Work (List Flag × List String)
  | 0, words => pure ([], words)
  | n + 1, words => do
    match words with
    | [] => pure ([], [])
    | word :: rest =>
      match word.toList with
      | ['-', '-'] => pure ([], rest)
      | '-' :: c :: cs => do
        let (flags, rest) ← readFlags plain valued (c :: cs) rest
        let (more, rest) ← readOptionsFor plain valued n rest
        pure (flags ++ more, rest)
      | _ => pure ([], words)

def readOptions (plain valued : String) (words : List String) : Work (List Flag × List String) :=
  readOptionsFor plain valued (words.length + 1) words

def withoutOptions (words : List String) : Work (List String) := return (← readOptions "" "" words).2

def hasFlag (flags : List Flag) (c : Char) : Bool := flags.any (·.1 == c)

def splitAssignment (word : String) : String × Option String :=
  let cs := word.toList
  match cs.dropWhile (· ≠ '=') with
  | _ :: value => (String.ofList (cs.takeWhile (· ≠ '=')), some (String.ofList value))
  | [] => (word, none)

def shownRuns : Nat → List Char → List Char
  | 0, _ => []
  | n + 1, cs =>
    let body := cs.takeWhile (· ≠ '\x27')
    let rest := cs.dropWhile (· ≠ '\x27')
    let quotes := rest.takeWhile (· = '\x27')
    let shown := '\x27' :: body ++ ['\x27']
    if quotes.isEmpty then shown
    else
      let after := rest.dropWhile (· = '\x27')
      shown ++ '\x22' :: quotes ++ '\x22' :: if after.isEmpty then [] else shownRuns n after

def shownValue (value : String) : String :=
  String.ofList (shownRuns (value.length + 1) value.toList)

end JobShell.Program.Sh
