import JobShell.Program.Sh.Builtin.Basic

namespace JobShell.Program.Sh

namespace Condition

/-- The classes of words in a condition. -/
inductive Class
  | unary
  | binary
  | negation
  | both
  | either
  | opening
  | closing
  deriving DecidableEq

def class? (word : String) : Option Class :=
  if ["-r", "-w", "-x", "-e", "-f", "-d", "-c", "-b", "-p", "-u", "-g", "-k", "-s", "-t", "-z", "-n", "-h",
      "-O", "-G", "-L", "-S"].contains word then some .unary
  else if ["=", "!=", "<", ">", "-eq", "-ne", "-ge", "-gt", "-le", "-lt", "-nt", "-ot", "-ef"].contains
      word then some .binary
  else
    match word with
    | "!" => some .negation
    | "-a" => some .both
    | "-o" => some .either
    | "(" => some .opening
    | ")" => some .closing
    | _ => none

inductive Sign
  | finish
  | operand
  | operator (c : Class)
  deriving DecidableEq

def sign : List String → Sign
  | [] => .finish
  | word :: rest =>
    match class? word with
    | none => .operand
    | some .unary =>
      let isOperand : Bool := match rest with
        | [] => true
        | [_] => false
        | next :: _ => class? next = some .binary
      if isOperand then .operand else .operator .unary
    | some .opening => if rest.isEmpty then .operand else .operator .opening
    | some c => .operator c

abbrev Part := Bool × List String

def numberOf (word : String) : Work Int := do
  match wholeInteger? (some 10) word with
  | some n => pure n
  | none => abort ("Illegal number: " ++ word)

def checkFile (op : String) (i : FileInfo) : Bool :=
  match op with
  | "-e" | "-r" | "-w" | "-O" | "-G" => true
  | "-x" => i.kind = .directory || i.mode &&& 0o111 ≠ 0
  | "-f" => i.kind = .regular
  | "-d" => i.kind = .directory
  | "-c" => i.kind = .device
  | "-p" => i.kind = .pipe
  | "-u" => i.mode &&& 0o4000 ≠ 0
  | "-g" => i.mode &&& 0o2000 ≠ 0
  | "-k" => i.mode &&& 0o1000 ≠ 0
  | "-s" => i.size ≠ 0
  | _ => false

def checkUnary (op word : String) : Work Bool := do
  match op with
  | "-z" => pure word.isEmpty
  | "-n" => pure !word.isEmpty
  | "-t" => do ask (.isTerminal (← numberOf word))
  | _ => do
    match ← ask (.inspect word) with
    | .ok i => pure (checkFile op i)
    | .error _ => pure false

def compareFiles (holds : FileInfo → FileInfo → Bool) (a b : String) : Work Bool := do
  match ← ask (.inspect a), ← ask (.inspect b) with
  | .ok a, .ok b => pure (holds a b)
  | _, _ => pure false

def checkBinary (a op b : String) : Work Bool := do
  let compare (holds : Int → Int → Bool) : Work Bool := do
    let m ← numberOf a
    let n ← numberOf b
    pure (holds m n)
  match op with
  | "!=" => pure (a ≠ b)
  | "<" => pure (decide (a < b))
  | ">" => pure (decide (b < a))
  | "-eq" => compare fun m n ↦ m = n
  | "-ne" => compare fun m n ↦ m ≠ n
  | "-ge" => compare fun m n ↦ m ≥ n
  | "-gt" => compare fun m n ↦ m > n
  | "-le" => compare fun m n ↦ m ≤ n
  | "-lt" => compare fun m n ↦ m < n
  | "-nt" => compareFiles (fun a b ↦ a.changed > b.changed) a b
  | "-ot" => compareFiles (fun a b ↦ a.changed < b.changed) a b
  | "-ef" => compareFiles (fun a b ↦ a.index = b.index) a b
  | _ => pure (a = b)

def checkPlain (s : Sign) (words : List String) : Work Part := do
  match s, words with
  | .operator .unary, op :: word :: rest => return (← checkUnary op word, word :: rest)
  | _, a :: op :: rest =>
    if sign (op :: rest) = .operator .binary then
      match rest with
      | b :: _ => return (← checkBinary a op b, rest)
      | [] => abort (op ++ ": argument expected")
    else pure (!a.isEmpty, words)
  | _, [a] => pure (!a.isEmpty, [a])
  | _, [] => pure (false, [])

inductive Strength
  | either
  | both
  | single

/-- Checks a part, nested at most so deep. `s` is what its first word is. -/
def check : Nat → Strength → Sign → List String → Work Part
  | 0, _, _, _ => abort "Out of space"
  | n + 1, .either, s, words => do
    let (a, words) ← check n .both s words
    if sign words.tail = .operator .either then
      let rest := words.drop 2
      let (b, words) ← check n .either (sign rest) rest
      pure (a || b, words)
    else pure (a, words)
  | n + 1, .both, s, words => do
    let (a, words) ← check n .single s words
    if sign words.tail = .operator .both then
      let rest := words.drop 2
      let (b, words) ← check n .both (sign rest) rest
      pure (a && b, words)
    else pure (a, words)
  | n + 1, .single, s, words => do
    match s with
    | .operator .negation => do
      let next := sign words.tail
      let (a, words) ← check n .single next (if next = .finish then words else words.tail)
      pure (!a, words)
    | .operator .opening => do
      let inner := words.tail
      if sign inner = .operator .closing then pure (false, inner)
      else
        let (a, words) ← check n .either (sign inner) inner
        if sign words.tail = .operator .closing then pure (a, words.tail)
        else abort "closing paren expected"
    | .finish => pure (false, words)
    | s => checkPlain s words

def unwrap : List String → Bool × List String
  | a :: b :: c :: rest =>
    let words := a :: b :: c :: rest
    if rest.length > 1 then (false, words)
    else if rest.isEmpty && class? b = some .binary then (false, words)
    else if a = "(" && words.getLast? = some ")" then (false, (b :: c :: rest).dropLast)
    else if a = "!" then
      (true, (unwrap (b :: c :: rest)).2)
    else (false, words)
  | words => (false, words)

def checkAll (words : List String) : Work Bool := do
  if words.isEmpty then pure false
  else
    let (negated, words) := unwrap words
    let isComparison : Bool := match words with
      | [_, op, _] => class? op = some .binary
      | _ => false
    let s := if isComparison then .operand else sign words
    let (holds, rest) ← check (8 * words.length + 8) .either s words
    match rest with
    | a :: _ :: _ => abort (a ++ ": unexpected operator")
    | _ => pure (holds != negated)

end Condition

def testCommand (bracketed : Bool) (words : List String) : Work Int := do
  if bracketed && words.getLast? ≠ some "]" then abort "missing ]"
  let holds ← Condition.checkAll (if bracketed then words.dropLast else words)
  pure (if holds then 0 else 1)

end JobShell.Program.Sh
