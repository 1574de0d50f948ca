import JobShell.Command.Basic
import JobShell.Failure
import JobShell.Home

namespace JobShell.Parser

inductive Quoting
  | none
  | single
  | double
  deriving DecidableEq, Repr

/-- What closes a substitution. -/
inductive Closer
  | paren
  | brace
  | backquote
  deriving DecidableEq, Repr

def Closer.char : Closer → Char
  | paren => ')'
  | brace => '}'
  | backquote => '\x60'

/-- Redirection operators that wait for the word after them. -/
inductive Operator
  | duplicate (input : Bool)
  | path (mode : OpenMode)
  | hereString
  | hereDocument (stripTabs : Bool)
  deriving DecidableEq, Repr

/-- What the word after a redirection operator is read as. -/
inductive Target
  | descriptor
  | name
  deriving DecidableEq, Repr

def Operator.target : Operator → Target
  | duplicate _ => .descriptor
  | path _ | hereString | hereDocument _ => .name

/-- A redirection that waits for the word after its operator. -/
structure Pending where
  operator : Operator
  source : Int
  target : Target
  deriving DecidableEq, Repr

/-- A word that has begun. It is quoted once any of its characters is. -/
structure Word where
  text : String := ""
  quoted : Bool := false
  deriving DecidableEq, Repr

/-- A here-document whose body is still to be read: the place of its redirection, counted from the
first command, and the line that ends it. -/
structure Request where
  command : Nat
  redirection : Nat
  delimiter : String
  stripTabs : Bool
  deriving DecidableEq, Repr

/-- Why a parse ended without a result. -/
inductive Fault
  | failure (f : Failure)
  | defect (d : Defect)
  deriving DecidableEq, Repr

structure State where
  rest : List Char
  quoting : Quoting := .none
  nesting : List Closer := []
  nestedQuote : Option Char := none
  joinsNext : Bool := false
  pending : Option Pending := none
  word : Option Word := none
  words : List String := []
  redirections : List Redirection := []
  commands : List Command := []
  requests : List Request := []
  deriving DecidableEq, Repr

namespace State

def unexpected {α : Type} (token : String) : Except Fault α :=
  .error (.failure (.unexpectedToken token))

def push (s : State) (c : Char) : State :=
  let w := s.word.getD {}
  { s with word := some { w with text := w.text.push c } }

def beginQuoted (s : State) : State :=
  let w := s.word.getD {}
  { s with word := some { w with quoted := true } }

/-- The redirection that a duplicating operator and the word after it denote. -/
def duplication (source : Int) (input : Bool) (word : String) : Except Fault Redirection :=
  if word = "-" then .ok (.close source input)
  else if !word.isEmpty && word.toList.all Decimal.isDigit then
    match Decimal.int32? word with
    | some fd => .ok (.duplicate source fd input)
    | none => unexpected word
  else unexpected word

/-- Ends the current word, which becomes an argument or completes the pending redirection. -/
def finishWord (s : State) : Except Fault State :=
  match s.word with
  | none => .ok s
  | some w =>
    let s := { s with word := none }
    match s.pending with
    | none => .ok { s with words := s.words ++ [w.text] }
    | some p =>
      let s := { s with pending := none }
      match p.target with
      | .descriptor => do
        let r ← duplication p.source (p.operator == .duplicate true) w.text
        .ok { s with redirections := s.redirections ++ [r] }
      | .name =>
        match p.operator with
        | .path mode =>
          .ok { s with redirections := s.redirections ++ [.path mode p.source w.text] }
        | .hereString =>
          .ok { s with redirections := s.redirections ++ [.document p.source (w.text ++ "\n")] }
        | .hereDocument stripTabs =>
          .ok { s with
            requests := s.requests ++
              [⟨s.commands.length, s.redirections.length, w.text, stripTabs⟩]
            redirections := s.redirections ++ [.document p.source ""] }
        | .duplicate _ => .error (.defect .missingDescriptor)

/-- The descriptor that the current word spells, if the word may stand for one: unquoted digits
directly before an operator, with no redirection waiting for a target. -/
def spelledSource? (s : State) : Option Int :=
  match s.word with
  | some w =>
    if !w.quoted && s.pending.isNone && w.text.toList.all Decimal.isDigit then
      Decimal.int32? w.text
    else none
  | none => none

/-- The redirection operator that begins with `c`, with its spelling and what follows it. -/
def operatorAt (c : Char) (rest : List Char) : Operator × String × List Char :=
  if c = '>' then
    match rest with
    | '>' :: r => (.path .append, ">>", r)
    | '&' :: r => (.duplicate false, ">&", r)
    | '|' :: r => (.path .truncate, ">|", r)
    | r => (.path .truncate, ">", r)
  else
    match rest with
    | '<' :: '<' :: r => (.hereString, "<<<", r)
    | '<' :: '-' :: r => (.hereDocument true, "<<-", r)
    | '<' :: r => (.hereDocument false, "<<", r)
    | '&' :: r => (.duplicate true, "<&", r)
    | '>' :: r => (.path .readWrite, "<>", r)
    | r => (.path .read, "<", r)

/-- Begins the redirection whose operator starts with `c`. -/
def beginRedirection (s : State) (c : Char) : Except Fault State :=
  let (operator, token, rest) := operatorAt c s.rest
  let spelled := s.spelledSource?
  let s := { s with rest := rest }
  match spelled with
  | some source =>
    .ok { s with word := none, pending := some ⟨operator, source, operator.target⟩ }
  | none => do
    let s ← s.finishWord
    if s.pending.isSome then unexpected token
    else .ok { s with pending := some ⟨operator, if c = '>' then 1 else 0, operator.target⟩ }

def closeCommand (s : State) (connector : Connector) : Except Fault State :=
  match Command.build connector s.words s.redirections with
  | .ok c => .ok { s with words := [], redirections := [], commands := s.commands ++ [c] }
  | .error d => .error (.defect d)

def lastConnector? (s : State) : Option Connector := s.commands.getLast?.map Command.connector

/-- Joins the current command to the next one. Semicolons may repeat; any other connector needs a
command before it. -/
def link (s : State) (connector : Connector) : Except Fault State := do
  let s ← s.finishWord
  if s.pending.isSome then unexpected connector.symbol
  else if s.words.isEmpty then
    if connector = .sequential ∧ s.lastConnector? = some .sequential ∧ s.redirections.isEmpty then
      .ok s
    else unexpected connector.symbol
  else s.closeCommand connector

end State

end JobShell.Parser
