import JobShell.Decimal

namespace JobShell

/-- How a redirection opens its path. -/
inductive OpenMode
  | truncate
  | append
  | read
  | readWrite
  deriving DecidableEq, Repr

/-- One operation on the descriptor `source` of a command. `input` records that a duplication or a
closing was written with `<&`, which changes how it is shown and nothing else. -/
inductive Redirection
  | duplicate (source target : Int) (input : Bool)
  | close (source : Int) (input : Bool)
  | path (mode : OpenMode) (source : Int) (path : String)
  | document (source : Int) (body : String)
  deriving DecidableEq, Repr

namespace Redirection

def source : Redirection → Int
  | duplicate s _ _ | close s _ | path _ s _ | document s _ => s

def path? : Redirection → Option String
  | path _ _ p => some p
  | _ => none

def document? : Redirection → Option String
  | document _ body => some body
  | _ => none

def defaultSource : Redirection → Int
  | duplicate _ _ input | close _ input => if input then 0 else 1
  | path .truncate _ _ | path .append _ _ => 1
  | path .read _ _ | path .readWrite _ _ | document _ _ => 0

def operator : Redirection → String
  | duplicate _ _ input | close _ input => if input then "<&" else ">&"
  | path .truncate _ _ => ">"
  | path .append _ _ => ">>"
  | path .read _ _ => "<"
  | path .readWrite _ _ => "<>"
  | document _ _ => "<<"

def operand : Redirection → String
  | duplicate _ target _ => Decimal.text target
  | close _ _ => "-"
  | path _ _ p => p
  | document _ _ => "EOF"

def text (r : Redirection) : String :=
  (if r.source = r.defaultSource then "" else Decimal.text r.source) ++ r.operator ++ r.operand

end Redirection

end JobShell
