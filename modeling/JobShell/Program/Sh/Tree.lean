import JobShell.Decimal

namespace JobShell.Program.Sh

/-- What is done with the value of a parameter. -/
inductive Use
  | senseless
  | value
  | length
  | default
  | alternative
  | assign
  | demand
  | cutFront (longest : Bool)
  | cutBack (longest : Bool)
  deriving DecidableEq

/-- What a redirection does to its descriptor; a descriptor that is copied may be named by a word. -/
inductive Channel (ω : Type)
  | input (path : ω)
  | output (path : ω) (overwrites : Bool)
  | append (path : ω)
  | both (path : ω)
  | copy (fd : Nat)
  | copyNamed (fd : ω)
  | close
  | document (number : Nat)

structure Redirect (ω : Type) where
  fd : Nat
  channel : Channel ω

mutual

inductive Piece
  | char (c : Char) (escaped : Bool)
  | quote
  | parameter (name : String) (use : Use) (orEmpty : Bool) (word : List Piece)
  | command (t : Tree)
  | arithmetic (word : List Piece)

/-- A command. The line is the one where it begins. -/
inductive Tree
  | nothing
  | simple (line : Nat) (assignments : List (String × List Piece)) (words : List (List Piece))
      (redirects : List (Redirect (List Piece)))
  | pipeline (stages : List Tree)
  | negated (t : Tree)
  | both (first second : Tree)
  | either (first second : Tree)
  | next (first second : Tree)
  | background (t : Tree) (line : Nat) (redirects : List (Redirect (List Piece)))
  | subshell (t : Tree) (line : Nat) (redirects : List (Redirect (List Piece)))
  | redirected (t : Tree) (line : Nat) (redirects : List (Redirect (List Piece)))
  | branch (condition yes : Tree) (no : Option Tree)
  | loop (untilTrue : Bool) (condition body : Tree)
  | each (line : Nat) (name : String) (words : Option (List (List Piece))) (body : Tree)
  | choice (line : Nat) (subject : List Piece) (cases : List (List (List Piece) × Tree))
  | define (name : String) (body : Tree)

end

abbrev Word := List Piece

instance : Inhabited Tree := ⟨.nothing⟩

structure Document where
  number : Nat
  expands : Bool
  word : Word

def isNameStart (c : Char) : Bool := c.isAlpha || c = '_'

def isNameChar (c : Char) : Bool := c.isAlphanum || c = '_'

def isName (s : String) : Bool :=
  match s.toList with
  | c :: cs => isNameStart c && cs.all isNameChar
  | [] => false

def isSpecialParameter (c : Char) : Bool := "@*#?-$!".toList.contains c || Decimal.isDigit c

def plainText? (w : Word) : Option (List Char) :=
  w.mapM fun
    | .char c false => some c
    | _ => none

def literalText (w : Word) : List Char :=
  w.filterMap fun
    | .char c _ => some c
    | _ => none

def nameLength (w : Word) : Nat :=
  (w.takeWhile fun
    | .char c false => isNameChar c
    | _ => false).length

def assignment? (w : Word) : Option (String × Word) :=
  let n := nameLength w
  match w.drop n with
  | .char '=' false :: value =>
    let name := String.ofList (literalText (w.take n))
    if isName name then some (name, value) else none
  | _ => none

end JobShell.Program.Sh
