import JobShell.Program.Sh.Source

namespace JobShell.Program.Sh

inductive Token
  | word (w : Word) (quoted : Bool)
  | reserved (r : String)
  | operator (text : String)
  | redirect (fd : Option Nat) (text : String)
  | newline
  | finish

namespace Token

def shown : Token → String
  | word _ _ => "word"
  | reserved text | operator text => "\x22" ++ text ++ "\x22"
  | redirect _ _ => "redirection"
  | newline => "newline"
  | finish => "end of file"

def isOperator (text : String) : Token → Bool
  | operator t => t == text
  | _ => false

def isReserved (text : String) : Token → Bool
  | reserved r => r == text
  | _ => false

def endsList : Token → Bool
  | operator t => t == ")" || t == ";;"
  | reserved r => ["\x7d", "do", "done", "elif", "else", "esac", "fi", "then"].contains r
  | finish => true
  | _ => false

end Token

def reservedWords : List String :=
  ["!", "\x7b", "\x7d", "case", "do", "done", "elif", "else", "esac", "fi", "for", "if", "in", "then",
    "until", "while"]

structure Checks where
  newlines : Bool := false
  reserved : Bool := false
  aliases : Bool := false
  delimiter : Bool := false

structure Pending where
  number : Nat
  delimiter : List Char
  expands : Bool
  stripsTabs : Bool

structure Reader where
  source : Source
  last : Token := .newline
  isBack : Bool := false
  checks : Checks := {}
  pending : List Pending := []
  documents : List Document := []
  serial : Nat := 0
  aliases : List (String × String) := []

abbrev Read := StateT Reader (Except Stop)

def malformed {α : Type} (text : String) : Read α := do
  throw (.malformed (← get).source.line text)

def getChar : Read (Option Char) := do
  let r ← get
  match r.source.take with
  | .error e => throw e
  | .ok (c, blank, source) => do
    set { r with source, checks := if blank then { r.checks with aliases := true } else r.checks }
    pure c

def putBack : Option Char → Read Unit
  | some c => modify fun r ↦ { r with source := r.source.putBack c }
  | none => pure ()

def nextLine : Read Unit := modify fun r ↦ { r with source := { r.source with line := r.source.line + 1 } }

def getJoinedFor : Nat → Read (Option Char)
  | 0 => pure none
  | n + 1 => do
    match ← getChar with
    | some '\\' => do
      match ← getChar with
      | some '\n' => do
        nextLine
        getJoinedFor n
      | c => do
        putBack c
        pure (some '\\')
    | c => pure c

def getJoined : Read (Option Char) := getJoinedFor 1000000000000

def putTokenBack : Read Unit := modify fun r ↦ { r with isBack := true }

def check (checks : Checks) : Read Unit := modify fun r ↦ { r with checks }

end JobShell.Program.Sh
