import JobShell.Parser.Continuation

namespace JobShell.Parser

/-- How one parse ended. -/
structure Outcome where
  result : Except Fault (Option CommandList)
  line : String
  reads : Nat

namespace Outcome

def consumed (o : Outcome) : Nat := o.line.length

def ofCommands (cs : List Command) : Except Fault (Option CommandList) :=
  if cs.isEmpty then .ok none
  else
    match CommandList.build cs with
    | .ok l => .ok (some l)
    | .error d => .error (.defect d)

end Outcome

def Answer.addition : Answer → String
  | line text => "\n" ++ text
  | _ => ""

def begin (homes : HomeDirs) (line : String) : Progress :=
  State.advance homes { rest := line.toList }

/-- Goes on until the parser has finished; also gives the answers that it left. -/
def finish (homes : HomeDirs) (p : Progress) (answers : List Answer) (line : String) (reads : Nat) :
    Outcome × List Answer :=
  match p with
  | .finished (.ok cs) => (⟨Outcome.ofCommands cs, line, reads⟩, answers)
  | .finished (.error f) => (⟨.error f, line, reads⟩, answers)
  | .waiting w =>
    match answers with
    | [] =>
      finish homes (w.resume homes .endOfInput) [] line (reads + 1)
    | a :: later => finish homes (w.resume homes a) later (line ++ a.addition) (reads + 1)
termination_by (answers.length, p.rank)
decreasing_by
  · exact Prod.Lex.right _ (w.rank_resume_endOfInput homes)
  · exact Prod.Lex.left _ _ (by simp)

def parse (homes : HomeDirs) (line : String) (answers : List Answer) : Outcome × List Answer :=
  finish homes (begin homes line) answers line 0

def State.reset (s : State) : State :=
  { s with
    rest := [], quoting := .none, nesting := [], nestedQuote := none, joinsNext := false, pending := none,
    word := none, words := [], redirections := [], commands := [], requests := [] }

/-- Parses `line` with a parser that earlier parses have left in the state `s`. It is set back before and after:
a parse that fails leaves off wherever it is. -/
def parseWith (homes : HomeDirs) (s : State) (line : String) (answers : List Answer) :
    Outcome × State × List Answer :=
  let s := { s.reset with rest := line.toList }
  let (o, later) := finish homes (s.advance homes) answers line 0
  (o, s.reset, later)

def parseEach (homes : HomeDirs) (s : State) : List String → List Answer → List Outcome
  | [], _ => []
  | line :: lines, answers =>
    let (o, s, later) := parseWith homes s line answers
    o :: parseEach homes s lines later

def parseAll (homes : HomeDirs) (lines : List String) (answers : List Answer) : List Outcome :=
  parseEach homes { rest := [] } lines answers

end JobShell.Parser
