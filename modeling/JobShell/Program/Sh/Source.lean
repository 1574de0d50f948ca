import JobShell.Program.Sh.Tree

namespace JobShell.Program.Sh

structure Layer where
  rest : List Char
  name : String
  endsInBlank : Bool
  spent : List String

structure Source where
  rest : List Char
  isWhole : Bool := true
  line : Nat := 1
  layers : List Layer := []
  spent : List String := []

inductive Stop
  | malformed (line : Nat) (text : String)
  | unfinished

namespace Source

def unwind : List Layer → List String → List Layer × List String × Bool
  | [], spent => ([], spent, false)
  | l :: ls, spent =>
    if l.rest.isEmpty then
      let (ls, spent, blank) := unwind ls (l.name :: l.spent ++ spent)
      (ls, spent, blank || l.endsInBlank)
    else (l :: ls, spent, false)

def take (s : Source) : Except Stop (Option Char × Bool × Source) :=
  let (layers, spent, blank) := unwind s.layers []
  match layers with
  | l :: ls =>
    match l.rest with
    | c :: rest => .ok (some c, blank, { s with layers := { l with rest } :: ls, spent })
    | [] => .ok (none, blank, { s with layers := ls, spent })
  | [] =>
    match s.rest with
    | c :: rest => .ok (some c, blank, { s with rest, layers := [], spent })
    | [] =>
      if s.isWhole then .ok (none, blank, { s with layers := [], spent }) else .error .unfinished

def putBack (s : Source) (c : Char) : Source :=
  match s.layers with
  | l :: ls => { s with layers := { l with rest := c :: l.rest } :: ls }
  | [] => { s with rest := c :: s.rest }

def isBusy (s : Source) (name : String) : Bool :=
  s.spent.contains name || s.layers.any fun l ↦ l.name == name || l.spent.contains name

def push (s : Source) (name : String) (text : List Char) : Source :=
  if text.isEmpty then s
  else
    let endsInBlank := text.getLast?.any fun c ↦ c = ' ' || c = '\t'
    { s with layers := ⟨text, name, endsInBlank, s.spent⟩ :: s.layers, spent := [] }

def afterLine? (s : Source) : List Char → Option Char → Except Stop (Option Source)
  | [], none => .ok (some { s with line := s.line + 1 })
  | [], some '\n' => .ok (some { s with line := s.line + 1 })
  | d :: ds, some c =>
    if c = d then do
      let (c, _, s) ← s.take
      afterLine? s ds c
    else .ok none
  | _, _ => .ok none

end Source

end JobShell.Program.Sh
