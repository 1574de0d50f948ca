namespace JobShell

/-- How a command is connected to the one after it. -/
inductive Connector
  | single
  | piped
  | and
  | or
  | background
  | sequential
  deriving DecidableEq, Repr

namespace Connector

/-- The operator as written between commands. -/
def symbol : Connector → String
  | single => ""
  | piped => "|"
  | and => "&&"
  | or => "||"
  | background => "&"
  | sequential => ";"

def name : Connector → String
  | single => "Single"
  | piped => "Piped"
  | and => "And"
  | or => "Or"
  | background => "Background"
  | sequential => "Sequential"

end Connector

end JobShell
