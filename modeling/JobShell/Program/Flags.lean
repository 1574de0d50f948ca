import JobShell.Program.Basic

namespace JobShell.Program

inductive Valued
  | never
  | sometimes
  | always
  | row
  deriving DecidableEq

structure Switch where
  key : String
  letters : String := ""
  long : String := ""
  valued : Valued := .never

structure Found where
  flags : List (String × Option String) := []
  words : List String := []
  problem : Option String := none

namespace Found

def has (f : Found) (key : String) : Bool := f.flags.any fun s ↦ s.1 == key

def values (f : Found) (key : String) : List String :=
  (f.flags.filter fun s ↦ s.1 == key).filterMap (·.2)

def value? (f : Found) (key : String) : Option String := (f.values key).getLast?

def run (f : Found) (name : String) (misuse : Int) (work : Held Int) : Sys Int := do
  if f.has "help" || f.has "version" then pure 0
  else
    match f.problem with
    | some problem => do
      tryHelp name problem
      pure misuse
    | none => Held.run name misuse work

def add (f : Found) (s : Switch) (value : Option String) : Found :=
  { f with flags := f.flags ++ [(s.key, value)] }

def fail (f : Found) (problem : String) : Found := { f with problem := some problem }

end Found

namespace Switch

def helpAndVersion : List Switch :=
  [{ key := "help", long := "help" }, { key := "version", long := "version" }]

structure Due where
  flag : Switch
  missing : String

/-- Reads a group of letters. Also gives a flag whose value is the next word. -/
def readGroup (known : List Switch) (f : Found) : List Char → Found × Option Due
  | [] => (f, none)
  | c :: cs =>
    match known.find? fun s ↦ s.letters.toList.contains c with
    | none => (f.fail ("invalid option -- '" ++ String.singleton c ++ "'"), none)
    | some s =>
      match s.valued with
      | .never => readGroup known (f.add s none) cs
      | .row =>
        let others := cs.dropWhile s.letters.toList.contains
        readGroup known (f.add s (some (String.ofList (c :: cs.takeWhile s.letters.toList.contains))))
          others
      | .sometimes => (f.add s (if cs.isEmpty then none else some (String.ofList cs)), none)
      | .always =>
        if cs.isEmpty then
          (f, some ⟨s, "option requires an argument -- '" ++ String.singleton c ++ "'"⟩)
        else (f.add s (some (String.ofList cs)), none)
termination_by cs => cs.length
decreasing_by
  · simp
  · exact Nat.lt_succ_of_le (List.dropWhile_suffix _).length_le

def named (known : List Switch) (name written : String) : Except String Switch :=
  match known.find? fun s ↦ s.long == name && !s.long.isEmpty with
  | some s => .ok s
  | none =>
    match known.filter fun s ↦ s.long.startsWith name && !s.long.isEmpty with
    | [] => .error ("unrecognized option '--" ++ written ++ "'")
    | s :: others =>
      match others.filter fun o ↦ o.key != s.key with
      | [] => .ok s
      | others =>
        .error ("option '--" ++ written ++ "' is ambiguous; possibilities:"
          ++ String.join ((s :: others).map fun o ↦ " '--" ++ o.long ++ "'"))

def readLong (known : List Switch) (f : Found) (word : List Char) : Found × Option Due :=
  let name := String.ofList (word.takeWhile (· ≠ '='))
  let value := match word.dropWhile (· ≠ '=') with
    | _ :: value => some (String.ofList value)
    | [] => none
  match named known name (String.ofList word) with
  | .error problem => (f.fail problem, none)
  | .ok s =>
    match value, s.valued with
    | some _, .never => (f.fail ("option '--" ++ s.long ++ "' doesn't allow an argument"), none)
    | none, .always => (f, some ⟨s, "option '--" ++ s.long ++ "' requires an argument"⟩)
    | value, _ => (f.add s value, none)

/-- Reads words; `due` is a flag whose value is the next of them. With `strict`, the first word that is
no flag ends the flags. -/
def readWords (known : List Switch) (strict : Bool) (f : Found) (due : Option Due) :
    List String → Found
  | [] =>
    match due with
    | some d => f.fail d.missing
    | none => f
  | word :: rest =>
    match due, word.toList with
    | some d, _ => readWords known strict (f.add d.flag (some word)) none rest
    | none, ['-', '-'] => { f with words := f.words ++ rest }
    | none, '-' :: c :: cs =>
      let (f, due) := if c = '-' then readLong known f cs else readGroup known f (c :: cs)
      if f.problem.isSome then f else readWords known strict f due rest
    | none, _ =>
      if strict then { f with words := word :: rest }
      else readWords known strict { f with words := f.words ++ [word] } none rest

def read (known : List Switch) (words : List String) : Found :=
  readWords (known ++ helpAndVersion) false {} none words

def readStrictly (known : List Switch) (words : List String) : Found :=
  readWords (known ++ helpAndVersion) true {} none words

end Switch

def chosen? (choices : List String) (value : String) : Option String :=
  if choices.contains value then some value
  else
    match choices.filter (·.startsWith value) with
    | [c] => some c
    | _ => none

def notChosen (choices : List String) (flag value : String) : String :=
  let ambiguous := 1 < (choices.filter (·.startsWith value)).length
  (if ambiguous then "ambiguous" else "invalid") ++ " argument " ++ quote value ++ " for "
    ++ quote flag ++ "\nValid arguments are:"
    ++ String.join (choices.map fun c ↦ "\n  - " ++ quote c)

end JobShell.Program
