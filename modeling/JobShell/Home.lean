import JobShell.Text.Ranges

namespace JobShell

structure HomeDirs where
  own : Option String
  ofUser : String → Option String

def isOperator (c : Char) : Bool :=
  c == '|' || c == '&' || c == ';' || c == '<' || c == '>'

def isBlank (c : Char) : Bool :=
  c == ' ' || c == '\t' || c == '\n'

namespace Tilde

def isNameChar (c : Char) : Bool :=
  c.isAlphanum || c == '_' || c == '-' || c == '.'

def endsPrefix (c : Char) : Bool :=
  c == '/' || Text.isSpace c || isOperator c

/-- The home that the prefix after a tilde stands for, and how many characters of `rest` the prefix
takes; `none` if the tilde stays as it is. -/
def expand? (homes : HomeDirs) (rest : List Char) : Option (String × Nat) :=
  let name := rest.takeWhile isNameChar
  let ended := match rest.dropWhile isNameChar with
    | [] => true
    | c :: _ => endsPrefix c
  if ended then
    let home := if name.isEmpty then homes.own else homes.ofUser (String.ofList name)
    home.map fun h ↦ (h, name.length)
  else none

end Tilde

end JobShell
