import JobShell.Command.Redirection
import JobShell.Failure

namespace JobShell

structure Command where
  connector : Connector
  words : List String
  redirections : List Redirection
  deriving DecidableEq, Repr

namespace Command

def build (connector : Connector) (words : List String) (redirections : List Redirection) :
    Except Defect Command :=
  if words.isEmpty then .error .noWords else .ok ⟨connector, words, redirections⟩

def program (c : Command) : String := c.words.headD ""

def arguments (c : Command) : List String := c.words.tail

def text (c : Command) : String :=
  " ".intercalate (c.words ++ c.redirections.map Redirection.text)

def fillDocument (rs : List Redirection) (index : Nat) (body : String) :
    Except Defect (List Redirection) :=
  match rs[index]? with
  | some (.document source _) => .ok (rs.set index (.document source body))
  | _ => .error .missingDocument

end Command

abbrev Pipeline := List Command

namespace Pipeline

def text (p : Pipeline) : String :=
  " ".intercalate (p.map fun c ↦
    if c.connector = .piped then c.text ++ " " ++ Connector.piped.symbol else c.text)

def connector (p : Pipeline) : Connector := (p.getLast?.map (·.connector)).getD .single

end Pipeline

structure CommandList where
  commands : List Command
  deriving DecidableEq, Repr

namespace CommandList

def build (commands : List Command) : Except Defect CommandList :=
  match commands.getLast?.map Command.connector with
  | some .single | some .background => .ok ⟨commands⟩
  | last => .error (.danglingList last)

/-- Cuts after every command whose connector is not a pipe. -/
def cut : List Command → List Pipeline
  | [] => []
  | c :: rest =>
    if c.connector = .piped then
      match cut rest with
      | [] => [[c]]
      | p :: ps => (c :: p) :: ps
    else [c] :: cut rest

def pipelines (l : CommandList) : List Pipeline := cut l.commands

end CommandList

end JobShell
